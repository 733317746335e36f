import Reality.Tls.PostHandshake

/-!
# How many useless records end a connection

Two places compare `retryCount` with the limit, and only one of them sets the limit
when nobody did. `Tallied` follows the counter, the limit and the two errors through
every function of `Read`; `retryCount` is always the number of events in a row that
brought nothing.
-/

namespace Reality

open Kit

/-- The connection was ended for its useless records. -/
def Conn.Aborted (c : Conn) : Prop :=
  c.inErr = some .tooManyIgnored ∨ c.inErr = some .tooManyNonAdvancing

instance (c : Conn) : Decidable c.Aborted := inferInstanceAs (Decidable (_ ∨ _))

/-- How many events in a row brought nothing. -/
def ReadState.useless (s : ReadState) : Nat := streak true (s.events.map ReadEvent.nonAdvancing)

/-- The limit `retryReadRecord` makes of `limit`. -/
def effectiveLimit (limit : Int) : Int := if limit ≤ 0 then maxUselessRecords else limit

theorem effectiveLimit_pos (limit : Int) : 0 < effectiveLimit limit := by
  rw [effectiveLimit]
  split
  · decide
  · omega

/-- The state of the counter on a connection that began with the limit `limit`. -/
structure Tallied (limit : Int) (s : ReadState) : Prop where
  count : s.retryCount = s.useless
  limit : s.maxUselessRecords = effectiveLimit limit ∨
    s.maxUselessRecords = limit ∧ limit ≤ 0 ∧ .ignored ∉ s.events
  abort : s.Aborted → s.maxUselessRecords < s.retryCount

structure Live (limit : Int) (s : ReadState) : Prop extends Tallied limit s where
  live : s.inErr = none

/-- The code keeps the count, and the connection alive as long as it returns. -/
def Keeps (limit : Int) {α : Type} (x : ReadM α) : Prop :=
  Triple (Live limit) x (fun _ => Live limit) (fun _ => Tallied limit)

section

variable {limit : Int} {α β : Type}

theorem Keeps.pure (a : α) : Keeps limit (pure a) := Triple.pure fun _ h => h

theorem Keeps.throw (e : Stop) : Keeps (α := α) limit (throw e) :=
  Triple.throw fun _ h => h.toTallied

theorem Keeps.bind {x : ReadM α} {f : α → ReadM β} (hx : Keeps limit x)
    (hf : ∀ a, Keeps limit (f a)) : Keeps limit (x >>= f) := Triple.bind hx hf

theorem Keeps.get {f : ReadState → ReadM α} (h : ∀ s, Keeps limit (f s)) :
    Keeps limit (get >>= f) := Triple.get fun s₀ h₀ => Triple.from (h s₀) h₀

theorem Keeps.modify {f : ReadState → ReadState} (h : ∀ s, Live limit s → Live limit (f s)) :
    Keeps limit (modify f) := Triple.modify h

theorem Keeps.ite {c : Prop} [Decidable c] {x y : ReadM α} (hx : Keeps limit x)
    (hy : Keeps limit y) : Keeps limit (if c then x else y) :=
  Triple.ite (fun _ => hx) (fun _ => hy)

/-! ## The counter -/

theorem useless_append (s : ReadState) (e : ReadEvent) :
    ReadState.useless { s with events := s.events ++ [e] }
      = if e.nonAdvancing then s.useless + 1 else 0 := by
  rw [ReadState.useless, List.map_append, List.map_singleton, streak_concat]
  rfl

/-- Any error but the two that count. -/
theorem setErrorLocked_keeps {e : ConnError} (h₁ : e ≠ .tooManyIgnored)
    (h₂ : e ≠ .tooManyNonAdvancing) : Keeps (α := α) limit (setErrorLocked e) := by
  apply Triple.bind (Q := fun _ => Tallied limit)
  · apply Triple.modify
    intro s h
    refine ⟨h.count, h.limit, ?_⟩
    rintro (ha | ha)
    · exact absurd (Option.some.inj ha) h₁
    · exact absurd (Option.some.inj ha) h₂
  · intro _
    exact Triple.throw fun _ h => h

/-- The two that do, where the count is over the limit. -/
theorem setErrorLocked_abort {P : ReadState → Prop}
    (h : ∀ s, P s → Tallied limit s ∧ s.maxUselessRecords < s.retryCount) (e : ConnError) :
    Triple P (setErrorLocked (α := α) e) (fun _ => Live limit) (fun _ => Tallied limit) := by
  apply Triple.bind (Q := fun _ => Tallied limit)
  · apply Triple.modify
    intro s hs
    obtain ⟨hc, hover⟩ := h s hs
    exact ⟨hc.count, hc.limit, fun _ => hover⟩
  · intro _
    exact Triple.throw fun _ h => h

/-! ## Records -/

theorem resetRetry_keeps : Keeps limit resetRetry := by
  apply Keeps.modify
  intro s h
  refine ⟨⟨?_, ?_, ?_⟩, h.live⟩
  · exact (useless_append s .advanced).symm
  · simpa using h.limit
  · intro ha
    rw [Conn.Aborted, h.live] at ha
    simp at ha

/-- `retryReadRecord` between its count and its limit. -/
structure Dropped (limit : Int) (s : ReadState) : Prop where
  count : s.retryCount = s.useless
  live : s.inErr = none
  limit : s.maxUselessRecords = effectiveLimit limit ∨ s.maxUselessRecords = limit ∧ limit ≤ 0

theorem countRetry_ignored :
    Triple (Live limit) (countRetry .ignored) (fun _ => Dropped limit)
      (fun _ => Tallied limit) := by
  apply Triple.modify
  intro s h
  refine ⟨?_, h.live, h.limit.imp id fun hl => ⟨hl.1, hl.2.1⟩⟩
  rw [h.count]
  exact (useless_append s .ignored).symm

/-- From then on the limit is set. -/
theorem Dropped.set {s : ReadState} (h : Dropped limit s) :
    Live limit (if s.maxUselessRecords ≤ 0 then { s with maxUselessRecords := maxUselessRecords }
      else s) := by
  have hpos := effectiveLimit_pos limit
  have hnot : ¬ s.Aborted := by
    rw [Conn.Aborted, h.live]
    simp
  have hlimit := h.limit
  by_cases hunset : s.maxUselessRecords ≤ 0
  · have heff : effectiveLimit limit = maxUselessRecords := by
      rw [effectiveLimit, if_pos (by omega)]
    rw [if_pos hunset]
    exact ⟨⟨h.count, .inl heff.symm, fun ha => absurd ha hnot⟩, h.live⟩
  · rw [if_neg hunset]
    exact ⟨⟨h.count, .inl (by omega), fun ha => absurd ha hnot⟩, h.live⟩

theorem retryReadRecord_keeps {again : ReadM Unit} (h : Keeps limit again) :
    Keeps limit (retryReadRecord again) := by
  apply Triple.bind countRetry_ignored
  intro _
  apply Triple.bind (Q := fun _ => Live limit)
  · exact Triple.modify fun s hs => hs.set
  intro _
  apply Triple.get
  intro s₀ h₀
  apply Triple.ite
  · intro hover
    apply setErrorLocked_abort
    intro s hs
    subst hs
    exact ⟨h₀.toTallied, hover⟩
  · intro _
    exact Triple.from h h₀

theorem postAction_fail {hand data : Bytes} {typ : UInt8} {e : ConnError}
    (h : postAction hand typ data = .fail e) : e ≠ .tooManyIgnored ∧ e ≠ .tooManyNonAdvancing := by
  unfold postAction at h
  split_ifs at h <;> cases h <;> exact ⟨by simp, by simp⟩

theorem processRecord_keeps {again : ReadM Unit} (h : Keeps limit again) (typ : UInt8)
    (data : Bytes) : Keeps limit (processRecord again typ data) := by
  apply Keeps.ite
  · exact setErrorLocked_keeps (by simp) (by simp)
  apply Keeps.bind
  · exact Keeps.ite resetRetry_keeps (Keeps.pure ())
  intro _
  apply Keeps.get
  intro s
  cases ha : postAction s.hand typ data with
  | fail e =>
      obtain ⟨h₁, h₂⟩ := postAction_fail ha
      exact setErrorLocked_keeps h₁ h₂
  | retry => exact retryReadRecord_keeps h
  | input => exact Keeps.modify fun s hs => ⟨⟨hs.count, hs.limit, hs.abort⟩, hs.live⟩
  | handshake => exact Keeps.modify fun s hs => ⟨⟨hs.count, hs.limit, hs.abort⟩, hs.live⟩

theorem nextIncoming_keeps : Keeps limit nextIncoming := by
  apply Keeps.get
  intro s
  cases s.rest with
  | nil => exact Keeps.throw _
  | cons a rest =>
      apply Keeps.bind
      · exact Keeps.modify fun s hs => ⟨⟨hs.count, hs.limit, hs.abort⟩, hs.live⟩
      · intro _
        exact Keeps.pure a

theorem receive_keeps {again : ReadM Unit} (h : Keeps limit again) (a : Incoming) :
    Keeps limit (receive again a) := by
  cases a with
  | failed temporary => exact Keeps.ite (Keeps.throw _) (setErrorLocked_keeps (by simp) (by simp))
  | rejected code => exact setErrorLocked_keeps (by simp) (by simp)
  | record typ data => exact processRecord_keeps h typ data

/-- A read that returns finds the connection alive, whatever it was before. -/
theorem readRecordOrCCS_spec (fuel : Nat) :
    Triple (Tallied limit) (readRecordOrCCS fuel) (fun _ => Live limit)
      (fun _ => Tallied limit) := by
  induction fuel with
  | zero => exact Triple.throw fun _ h => h
  | succ fuel ih =>
      have hagain : Keeps limit (readRecordOrCCS fuel) :=
        ih.weaken (fun _ h => h.toTallied) (fun _ _ => id) (fun _ _ => id)
      apply Triple.get
      intro s₀ h₀
      cases herr : s₀.inErr with
      | some e => exact Triple.throw fun s hs => hs ▸ h₀
      | none =>
          apply Triple.from _ (⟨h₀, herr⟩ : Live limit s₀)
          apply Keeps.ite
          · exact setErrorLocked_keeps (by simp) (by simp)
          · exact Keeps.bind nextIncoming_keeps (receive_keeps hagain)

theorem readRecordOrCCS_keeps (fuel : Nat) : Keeps limit (readRecordOrCCS fuel) :=
  (readRecordOrCCS_spec fuel).weaken (fun _ h => h.toTallied) (fun _ _ => id) (fun _ _ => id)

/-! ## Messages -/

theorem readHandshakeBytes_keeps (n fuel : Nat) : Keeps limit (readHandshakeBytes n fuel) := by
  induction fuel with
  | zero => exact Keeps.throw _
  | succ fuel ih =>
      apply Keeps.get
      intro s
      apply Keeps.ite (Keeps.pure ())
      apply Keeps.bind (readRecordOrCCS_keeps (fuel + 1))
      intro _
      exact ih

theorem readBody_keeps (e : Endpoint) (fuel n : Nat) : Keeps limit (readBody e fuel n) := by
  apply Keeps.bind (readHandshakeBytes_keeps _ fuel)
  intro _
  apply Keeps.get
  intro s
  apply Keeps.bind
  · exact Keeps.modify fun s hs => ⟨⟨hs.count, hs.limit, hs.abort⟩, hs.live⟩
  intro _
  split
  · exact setErrorLocked_keeps (by simp) (by simp)
  · exact Keeps.pure _

theorem readHandshake_keeps (e : Endpoint) (fuel : Nat) : Keeps limit (readHandshake e fuel) := by
  apply Keeps.bind (readHandshakeBytes_keeps 4 fuel)
  intro _
  apply Keeps.get
  intro s
  apply Keeps.ite
  · exact setErrorLocked_keeps (by simp) (by simp)
  · exact readBody_keeps e fuel _

theorem handleNewSessionTicket_keeps (e : Endpoint) (msg : NewSessionTicketMsg) :
    Keeps limit (handleNewSessionTicket e msg) := by
  apply Keeps.ite (Keeps.throw _)
  apply Keeps.ite (Keeps.pure ())
  apply Keeps.ite (Keeps.pure ())
  apply Keeps.ite (Keeps.throw _)
  apply Keeps.ite (Keeps.throw _)
  exact Keeps.ite (Keeps.throw _) (Keeps.pure ())

theorem handleKeyUpdate_keeps (e : Endpoint) : Keeps limit (handleKeyUpdate e) :=
  Keeps.ite (setErrorLocked_keeps (by simp) (by simp)) (Keeps.pure ())

/-- A message is counted against a limit that may not be set. -/
theorem countRetry_message : Keeps limit (countRetry .message) := by
  apply Keeps.modify
  intro s h
  refine ⟨⟨?_, ?_, ?_⟩, h.live⟩
  · rw [h.count]
    exact (useless_append s .message).symm
  · simpa using h.limit
  · intro ha
    rw [Conn.Aborted, h.live] at ha
    simp at ha

theorem handlePostHandshakeMessage_keeps (e : Endpoint) (fuel : Nat) :
    Keeps limit (handlePostHandshakeMessage e fuel) := by
  apply Keeps.bind (readHandshake_keeps e fuel)
  intro msg
  apply Keeps.bind countRetry_message
  intro _
  apply Triple.get
  intro s₀ h₀
  apply Triple.ite
  · intro hover
    apply setErrorLocked_abort
    intro s hs
    subst hs
    exact ⟨h₀.toTallied, hover⟩
  · intro _
    apply Triple.from _ h₀
    cases msg with
    | newSessionTicket msg => exact handleNewSessionTicket_keeps e msg
    | keyUpdate requested => exact handleKeyUpdate_keeps e
    | other => exact Keeps.throw _

/-! ## Reads -/

theorem handleMessages_keeps (e : Endpoint) (fuel : Nat) : Keeps limit (handleMessages e fuel) := by
  induction fuel with
  | zero => exact Keeps.throw _
  | succ fuel ih =>
      apply Keeps.get
      intro s
      apply Keeps.ite (Keeps.pure ())
      apply Keeps.bind (handlePostHandshakeMessage_keeps e (fuel + 1))
      intro _
      exact ih

/-- The loop of `Read`. It may return without a look at the connection. -/
theorem readLoop_spec (e : Endpoint) (fuel : Nat) :
    Triple (Tallied limit) (readLoop e fuel) (fun _ => Tallied limit)
      (fun _ => Tallied limit) := by
  induction fuel with
  | zero => exact Triple.throw fun _ h => h
  | succ fuel ih =>
      apply Triple.get
      intro s₀ h₀
      apply Triple.ite
      · intro _
        exact Triple.pure fun s hs => hs ▸ h₀
      · intro _
        apply Triple.bind (Q := fun _ => Live limit)
        · exact (readRecordOrCCS_spec (fuel + 1)).from h₀
        intro _
        apply Triple.bind (handleMessages_keeps e (fuel + 1))
        intro _
        exact ih.weaken (fun _ h => h.toTallied) (fun _ _ => id) (fun _ _ => id)

/-- **One call of `Read`** keeps the count. -/
theorem read_spec (e : Endpoint) (n : Nat) (alertNext : Bool) :
    Triple (Tallied limit) (read e n alertNext) (fun _ => Tallied limit)
      (fun _ => Tallied limit) := by
  apply Triple.ite
  · intro _
    exact Triple.pure fun _ h => h
  intro _
  apply Triple.get
  intro s₀ h₀
  apply Triple.bind (Q := fun _ => Tallied limit)
  · exact (readLoop_spec e _).from h₀
  intro _
  apply Triple.get
  intro s₁ h₁
  apply Triple.bind (Q := fun _ => Tallied limit)
  · apply Triple.modify
    intro s hs
    subst hs
    exact ⟨h₁.count, h₁.limit, h₁.abort⟩
  intro _
  apply Triple.ite
  · intro _
    apply Triple.bind ((readRecordOrCCS_spec _).weaken (fun _ => id) (fun _ _ h => h.toTallied)
      (fun _ _ => id))
    intro _
    exact Triple.pure fun _ h => h
  · intro _
    exact Triple.pure fun _ h => h

/-- **Any number of calls** keeps it. -/
theorem reads_tallied (e : Endpoint) (calls : List (Nat × Bool)) {s : ReadState}
    (h : Tallied limit s) : Tallied limit (reads e calls s) := by
  induction calls generalizing s with
  | nil => exact h
  | cons call calls ih =>
      obtain ⟨n, alertNext⟩ := call
      have hread := read_spec e n alertNext s h
      rw [reads]
      cases hr : read e n alertNext s with
      | ok v s' =>
          rw [hr] at hread
          exact ih hread
      | error stop s' =>
          rw [hr] at hread
          cases stop with
          | error e => exact ih hread
          | waiting => exact hread
          | outOfFuel => exact hread

end

/-! ## A key update -/

/-- A record with a key update and nothing else. -/
def keyUpdateRecord (updateRequested : Bool) : Incoming :=
  .record recordTypeHandshake (keyUpdateBytes updateRequested)

section

variable {e : Endpoint} (requested : Bool) (fuel count : Nat) (limit : Int)
variable (rest : List Incoming) (events : List ReadEvent)

theorem readRecordOrCCS_keyUpdate :
    readRecordOrCCS (fuel + 1)
        ⟨⟨count, limit, [], [], none⟩, keyUpdateRecord requested :: rest, events⟩
      = .ok () ⟨⟨0, limit, keyUpdateBytes requested, [], none⟩, rest, events ++ [.advanced]⟩ := by
  cases requested <;> rfl

theorem readHandshake_keyUpdate :
    readHandshake e (fuel + 1) ⟨⟨count, limit, keyUpdateBytes requested, [], none⟩, rest, events⟩
      = .ok (.keyUpdate requested) ⟨⟨count, limit, [], [], none⟩, rest, events⟩ := by
  have hread := @readHandshake_ok e
    ⟨⟨count, limit, keyUpdateBytes requested, [], none⟩, rest, events⟩ (.keyUpdate requested)
  simp only [handshakeLenAt_keyUpdate] at hread
  exact hread (by decide) (Nat.le_refl 5) (unmarshalHandshakeMessage_keyUpdate e requested) fuel

/-- It is handled when the count it brings is within the limit. -/
theorem handlePostHandshakeMessage_keyUpdate
    (hsuite : cipherSuiteTLS13ByID e.cipherSuite = true) :
    handlePostHandshakeMessage e (fuel + 1)
        ⟨⟨count, limit, keyUpdateBytes requested, [], none⟩, rest, events⟩
      = if ((count + 1 : Nat) : Int) > limit then
          .error (.error .tooManyNonAdvancing)
            ⟨⟨count + 1, limit, [], [], some .tooManyNonAdvancing⟩, rest, events ++ [.message]⟩
        else .ok () ⟨⟨count + 1, limit, [], [], none⟩, rest, events ++ [.message]⟩ := by
  rw [handlePostHandshakeMessage,
    bind_ok (readHandshake_keyUpdate requested fuel count limit rest events),
    bind_ok (show countRetry .message ⟨⟨count, limit, [], [], none⟩, rest, events⟩ = .ok ()
      ⟨⟨count + 1, limit, [], [], none⟩, rest, events ++ [.message]⟩ from rfl), get_bind]
  by_cases hover : ((count + 1 : Nat) : Int) > limit
  · rw [if_pos hover, if_pos hover]
    rfl
  · rw [if_neg hover, if_neg hover]
    dsimp only
    rw [handleKeyUpdate, if_neg (by simp [hsuite])]
    rfl

/-- The loop of `Read` on that record: it fails, or waits for the next one. -/
theorem readLoop_keyUpdate (hsuite : cipherSuiteTLS13ByID e.cipherSuite = true) :
    readLoop e (fuel + 2) ⟨⟨count, limit, [], [], none⟩, [keyUpdateRecord requested], events⟩
      = if (1 : Int) > limit then
          .error (.error .tooManyNonAdvancing) ⟨⟨1, limit, [], [], some .tooManyNonAdvancing⟩, [],
            events ++ [.advanced] ++ [.message]⟩
        else .error .waiting ⟨⟨1, limit, [], [], none⟩, [],
            events ++ [.advanced] ++ [.message]⟩ := by
  have hhand : ¬ keyUpdateBytes requested = [] := List.cons_ne_nil _ _
  have hmsg := handlePostHandshakeMessage_keyUpdate requested (fuel + 1) 0 limit []
    (events ++ [.advanced]) hsuite
  rw [readLoop, get_bind, if_neg (by simp),
    bind_ok (readRecordOrCCS_keyUpdate requested (fuel + 1) count limit [] events)]
  by_cases hover : (1 : Int) > limit
  · rw [if_pos (show ((0 + 1 : Nat) : Int) > limit from hover)] at hmsg
    rw [if_pos hover]
    apply bind_error
    rw [handleMessages, get_bind, if_neg hhand, bind_error hmsg]
  · rw [if_neg (show ¬ ((0 + 1 : Nat) : Int) > limit from hover)] at hmsg
    rw [if_neg hover]
    have hall : handleMessages e (fuel + 1 + 1) ⟨⟨0, limit, keyUpdateBytes requested, [], none⟩, [],
        events ++ [.advanced]⟩ = .ok () ⟨⟨1, limit, [], [], none⟩, [],
          events ++ [.advanced] ++ [.message]⟩ := by
      rw [handleMessages, get_bind, if_neg hhand, bind_ok hmsg]
      rfl
    rw [bind_ok hall]
    rfl

end

/-- **A key update on its own** ends an idle connection exactly when the limit is not
set. -/
theorem keyUpdate_accepted_iff {e : Endpoint} (hsuite : cipherSuiteTLS13ByID e.cipherSuite = true)
    {s : ReadState} (hlive : s.inErr = none) (hhand : s.hand = []) (hinput : s.input = [])
    (requested : Bool) (n : Nat) (alertNext : Bool) :
    (reads e [(n + 1, alertNext)] { s with rest := [keyUpdateRecord requested] }).inErr = none ↔
      0 < s.maxUselessRecords := by
  obtain ⟨⟨count, limit, hand, input, inErr⟩, rest, events⟩ := s
  dsimp only at hlive hhand hinput ⊢
  subst hlive hhand hinput
  have hread : ∀ stop s', readLoop e (5 + 2) ⟨⟨count, limit, [], [], none⟩,
      [keyUpdateRecord requested], events⟩ = .error stop s' →
      read e (n + 1) alertNext ⟨⟨count, limit, [], [], none⟩, [keyUpdateRecord requested], events⟩
        = .error stop s' := by
    intro stop s' hloop
    rw [read, if_neg (Nat.succ_ne_zero n), get_bind]
    exact bind_error hloop
  have hloop := readLoop_keyUpdate requested 5 count limit events hsuite
  by_cases hover : (1 : Int) > limit
  · rw [if_pos hover] at hloop
    rw [reads, hread _ _ hloop]
    refine ⟨fun h => ?_, fun h => ?_⟩
    · cases h
    · omega
  · rw [if_neg hover] at hloop
    rw [reads, hread _ _ hloop]
    refine ⟨fun _ => ?_, fun _ => rfl⟩
    omega

/-! ## When a connection is ended -/

/-- The count was over a limit that was set, unless a message came before anything
else that counts. -/
theorem Tallied.lt_useless {limit : Int} (hlimit : 0 ≤ limit) {s : ReadState}
    (h : Tallied limit s) (ha : s.Aborted)
    (hset : 0 < limit ∨ s.events.find? ReadEvent.nonAdvancing ≠ some .message) :
    effectiveLimit limit < s.useless := by
  have hover := h.abort ha
  rw [h.count] at hover
  rcases h.limit with heff | ⟨hraw, hunset, hnone⟩
  · rw [← heff]
    exact hover
  exfalso
  rcases hset with hpos | hfirst
  · omega
  -- No record was dropped, so what was counted is a message.
  have hone : List.replicate 1 true <:+ s.events.map ReadEvent.nonAdvancing :=
    replicate_suffix_of_le_streak (show 1 ≤ s.useless by omega)
  obtain ⟨e, he, hcounts⟩ := List.mem_map.mp (hone.subset (List.mem_singleton_self true))
  cases hfind : s.events.find? ReadEvent.nonAdvancing with
  | none => exact absurd hcounts (List.find?_eq_none.mp hfind e he)
  | some first =>
      have hmem := List.mem_of_find?_eq_some hfind
      have hnon := List.find?_some hfind
      cases first with
      | advanced => cases hnon
      | ignored => exact hnone hmem
      | message => exact hfirst hfind

/-- **A connection is ended only for useless records.** On a connection that starts
with no limit, and on which a record was dropped before the first message, the two
errors come after more than `maxUselessRecords` events in a row that brought nothing;
and once a record was dropped, a key update is accepted. -/
theorem aborted_only_if_useless {s₀ : ReadState} (hcount : s₀.retryCount = 0)
    (hlimit : s₀.maxUselessRecords = 0) (hlive : s₀.inErr = none) (hevents : s₀.events = [])
    (e : Endpoint) (calls : List (Nat × Bool))
    (hfirst : (reads e calls s₀).events.find? ReadEvent.nonAdvancing ≠ some .message) :
    ((reads e calls s₀).Aborted →
        List.replicate (maxUselessRecords + 1) true
          <:+ (reads e calls s₀).events.map ReadEvent.nonAdvancing) ∧
      (.ignored ∈ (reads e calls s₀).events → (reads e calls s₀).inErr = none →
        (reads e calls s₀).hand = [] → (reads e calls s₀).input = [] →
        cipherSuiteTLS13ByID e.cipherSuite = true → ∀ requested n alertNext,
        (reads e [(n + 1, alertNext)]
          { reads e calls s₀ with rest := [keyUpdateRecord requested] }).inErr = none) := by
  have hstart : Tallied 0 s₀ := by
    refine ⟨?_, .inr ⟨hlimit, Int.le_refl 0, ?_⟩, ?_⟩
    · rw [hcount, ReadState.useless, hevents]
      rfl
    · rw [hevents]
      exact List.not_mem_nil
    · intro ha
      rw [Conn.Aborted, hlive] at ha
      simp at ha
  have hend := reads_tallied e calls hstart
  constructor
  · intro ha
    have hlt := hend.lt_useless (Int.le_refl 0) ha (.inr hfirst)
    apply replicate_suffix_of_le_streak
    exact Int.ofNat_lt.mp hlt
  · intro hignored hlive' hhand hinput hsuite requested n alertNext
    apply (keyUpdate_accepted_iff hsuite hlive' hhand hinput requested n alertNext).mpr
    rcases hend.limit with heff | ⟨-, -, hnone⟩
    · rw [heff]
      exact effectiveLimit_pos 0
    · exact absurd hignored hnone

/-- A server, and the empty record some peers send. -/
def sampleServer : Endpoint := ⟨false, 0x1301, false, none, fun _ => false⟩

def emptyRecord : Incoming := .record recordTypeApplicationData []

/-- An empty record, and 33 key updates in one record. -/
theorem aborted_only_if_useless_flood :
    (reads sampleServer [(1, false)] { rest := [emptyRecord, .record recordTypeHandshake
        (List.replicate 33 (keyUpdateBytes false)).flatten] }).Aborted ∧
      List.replicate (maxUselessRecords + 1) true
        <:+ (reads sampleServer [(1, false)] { rest := [emptyRecord, .record recordTypeHandshake
          (List.replicate 33 (keyUpdateBytes false)).flatten] }).events.map
            ReadEvent.nonAdvancing := by
  have habort : (reads sampleServer [(1, false)] { rest := [emptyRecord, .record
      recordTypeHandshake (List.replicate 33 (keyUpdateBytes false)).flatten] }).Aborted := by
    decide +kernel
  exact ⟨habort, (aborted_only_if_useless rfl rfl rfl rfl sampleServer [(1, false)]
    (by decide +kernel)).1 habort⟩

/-- The first key update ends the connection, and does not after an empty record. -/
theorem keyUpdate_aborts :
    (reads sampleServer [(1, false)] { rest := [keyUpdateRecord false] }).inErr
        = some .tooManyNonAdvancing ∧
      (reads sampleServer [(1, false)] { rest := [keyUpdateRecord false] }).useless = 1 ∧
      (reads sampleServer [(1, false)] { rest := [emptyRecord, keyUpdateRecord false] }).inErr
        = none := by
  refine ⟨?_, ?_, ?_⟩
  · decide +kernel
  · decide +kernel
  · decide +kernel

end Reality
