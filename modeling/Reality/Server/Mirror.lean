import Reality.Auth.Authenticate
import Reality.Server.System
import Reality.Tls.Fragments
import Reality.Tls.ReadHello

/-!
# The mirror

`Server` (server_amortize.go) up to the point where it either serves the client
itself or gives up and MIRRORS: copies the client's bytes to the target and the
target's to the client. By then bytes of both have been read. What
`readClientHello` took is replayed as one fresh record around the parsed
message, if there is one; what `captureTargetRecords` took is not replayed.

`Visit.mirror_exact_iff` says for which connections the two sides still see exactly
each other's bytes.
-/

namespace Reality

open Kit

/-- One connection: the configuration it meets, the state it finds, and the
bytes its two ends send, as the reads deliver them, before end of file. The
cache may change between path selection (`cache`) and capture (`later`).
`forwarded` bounds what the upload of a failed capture gets to copy before the
download ends and both connections are closed. -/
structure Visit where
  hello : HelloConfig := {}
  serverNames : Bytes → Bool := fun _ => true
  crypto : AuthCrypto
  auth : AuthConfig
  guard : Option ReplayGuard := none
  readings : Readings
  mirrorOnly : Bool := false
  dest : Bytes
  amortizeMode : AmortizeMode := .default
  allowsAmortize : Bool := true
  cache : CacheManager := newCacheManager
  later : CacheManager := newCacheManager
  now : Int
  client : List Bytes
  target : List Bytes
  /-- The connection has a `CloseWrite`. -/
  underlying : Bool := true
  forwarded : Nat := 0

/-- What a mirrored connection has written when it is closed. -/
structure Mirrored where
  toTarget : Bytes
  toClient : Bytes
  deriving DecidableEq

/-- Where a readable ClientHello leads. -/
inductive Route where
  | mirror (ch : ClientHelloMsg)
  | zeroDial
  | dial (req : Request)

namespace Visit

/-- The second phase and path selection. -/
def route (v : Visit) (ch : ClientHelloMsg) (vers : UInt16) : Route :=
  if vers ≠ versionTLS13 || !v.serverNames ch.serverName then .mirror ch
  else
    let a := authenticateClientHello v.crypto v.auth ch v.guard v.readings
    if !a.accepted || v.mirrorOnly then .mirror a.ch
    else
      let req : Request := ⟨v.dest, v.amortizeMode, v.allowsAmortize, a.ch⟩
      let pre := (v.cache.lookupAmortize (req.query 0 0) v.now).2
      if selectPath a.ch pre = .l2 then .zeroDial else .dial req

/-- `mirrorAfterFailedAuth`, after `alert` was sent and with `unread` still to
come from the client. -/
def mirrorAfterFailedAuth (v : Visit) (ch : Option ClientHelloMsg) (alert : Bytes)
    (unread : List Bytes) : Mirrored :=
  let replayed := match ch with
    | some ch => wrapHandshakeRecord ch.original versionTLS10
    | none => []
  { toTarget := replayed ++ unread.flatten, toClient := alert ++ v.target.flatten }

def captured (v : Visit) (req : Request) : CaptureResult × List Read :=
  let look := fun suite group => (v.later.lookupAmortize (req.query suite group) v.now).2
  captureTargetRecords ⟨req.mode, look⟩ (v.target.map (⟨·, none⟩))

/-- The mirror after a failed capture. It copies only if there is an
`underlying` connection to copy. -/
def mirrorAfterCapture (v : Visit) (req : Request) (unread : List Bytes) : Mirrored :=
  { toTarget := wrapHandshakeRecord req.ch.original versionTLS10 ++
      if v.underlying then unread.flatten.take v.forwarded else []
    toClient := if v.underlying then ((v.captured req).2.map (·.bytes)).flatten else [] }

/-- `Server`; none if it serves the client itself. -/
def server (v : Visit) : Option Mirrored :=
  match readClientHello v.hello ⟨[], [], v.client⟩ with
  | (s, .error e) => some (v.mirrorAfterFailedAuth none e.sent s.rest)
  | (s, .ok (ch, vers)) =>
      match v.route ch vers with
      | .mirror ch => some (v.mirrorAfterFailedAuth (some ch) [] s.rest)
      | .zeroDial => none
      | .dial req =>
          let res := (v.captured req).1
          if res.err.isSome || res.hello.isNone || res.usedLen 0 = 0 then
            some (v.mirrorAfterCapture req s.rest)
          else none

/-! ## When the mirror is transparent -/

/-- The client sent its hello as ONE record of version 1.0, in reads of its
own, and it is a hello the server goes on with as it is. -/
structure Replayable (v : Visit) (taken rest : List Bytes) (ch : ClientHelloMsg)
    (vers : UInt16) : Prop where
  split : v.client = taken ++ rest
  record : taken.flatten = wrapHandshakeRecord ch.original versionTLS10
  one : OneRecord ch.original
  accepted : negotiate v.hello ch.original = .ok (ch, vers)

/-- Nothing is lost in a capture: the target stays silent through the reads,
and the copying, if there is any, gets to the end. -/
def Undisturbed (v : Visit) (rest : List Bytes) : Prop :=
  if v.underlying then
    rest.flatten.length ≤ v.forwarded ∧ (v.target.take maxTargetReads).flatten = []
  else rest.flatten = [] ∧ v.target.flatten = []

/-- Either the client sent nothing, or its hello can be replayed, and nothing
is captured after it. -/
def Transparent (v : Visit) : Prop :=
  v.client.flatten = [] ∨ ∃ taken rest ch vers, v.Replayable taken rest ch vers ∧
    ∀ req, v.route ch vers = .dial req → v.Undisturbed rest

end Visit

/-! ## What was read -/

/-- The hello that is replayed is the one that was read. -/
theorem Visit.route_ch {ch : ClientHelloMsg} (v : Visit) (vers : UInt16) (h : ch.Parsed) :
    (∀ ch', v.route ch vers = .mirror ch' → ch' = ch) ∧
      ∀ req, v.route ch vers = .dial req → req.ch = ch := by
  have hauth := authenticateClientHello_ch v.crypto v.auth v.guard v.readings h.sessionId_within
  unfold Visit.route
  dsimp only
  rw [hauth]
  split
  · exact ⟨fun ch' heq => by cases heq; rfl, fun req heq => by cases heq⟩
  · split
    · exact ⟨fun ch' heq => by cases heq; rfl, fun req heq => by cases heq⟩
    · split
      · exact ⟨fun ch' heq => (by cases heq), fun req heq => by cases heq⟩
      · exact ⟨fun ch' heq => (by cases heq), fun req heq => by cases heq; rfl⟩

/-- An error behind `readHandshake` sends an alert. -/
theorem negotiate_error {cfg : HelloConfig} {msg : Bytes} {e : ReadError}
    (h : negotiate cfg msg = .error e) : e.sent ≠ [] := by
  have halert : ∀ vers code, (ReadError.alert vers code).sent ≠ [] := by
    intro vers code hnil
    have hlen := congrArg List.length hnil
    simp [ReadError.sent] at hlen
  unfold negotiate at h
  split at h
  · cases h
    exact halert _ _
  · dsimp only at h
    split at h
    · cases h
      exact halert _ _
    · split at h
      · cases h
        exact halert _ _
      · split at h
        · cases h
          exact halert _ _
        · cases h

theorem readFromUntil_silent {n : Nat} (hn : 0 < n) {client : List Bytes}
    (h : client.flatten = []) : readFromUntil n [] client = (([], []), false) := by
  induction client with
  | nil =>
      rw [readFromUntil]
      simp only [List.length_nil, Prod.mk.injEq, true_and, decide_eq_false_iff_not]
      omega
  | cons c client ih =>
      rw [List.flatten_cons, List.append_eq_nil_iff] at h
      rw [readFromUntil, if_neg (by rw [List.length_nil]; omega), h.1]
      exact ih h.2

/-- A client that sends nothing is read to its end, in silence. -/
theorem readHandshake_silent {client : List Bytes} (h : client.flatten = []) :
    (Input.mk [] [] client).readHandshake = (⟨[], [], []⟩, .error .closed) := by
  have hfill : (Input.mk [] [] client).fill recordHeaderLen = (⟨[], [], []⟩, false) := by
    unfold Input.fill
    rw [readFromUntil_silent (by decide) h]
  have htake : (Input.mk [] [] client).takeRecord = (⟨[], [], []⟩, .error .closed) := by
    unfold Input.takeRecord
    rw [hfill]
    rfl
  have hrec : (Input.mk [] [] client).readRecord maxUselessRecords
      = (⟨[], [], []⟩, some .closed) := by
    rw [Input.readRecord, htake]
  unfold Input.readHandshake
  rw [Input.readHandshakeBytes, if_neg (by show ¬ 4 ≤ 0; omega), hrec]

/-- What was taken in holds a header more than the handshake data. -/
theorem Reading.hand_le {client taken : List Bytes} {s : Input} (h : Reading client taken s)
    (hne : s.hand ≠ []) : recordHeaderLen + s.hand.length ≤ taken.flatten.length := by
  cases h.shape with
  | none hhand _ => exact absurd hhand hne
  | one header hlen _ _ _ hbytes =>
      rw [hbytes, List.length_append, List.length_append, hlen]
      omega
  | more hlen => omega

/-- If the replayed hello, and of the unread bytes no more than there are, make
up what the client sent, then the hello was the one record taken in. -/
theorem Reading.replayed {client taken : List Bytes} {s : Input} (h : Reading client taken s)
    {m p : Bytes} (hhand : 4 + handshakeLenAt s.hand ≤ s.hand.length)
    (hm : m.length ≤ 4 + handshakeLenAt s.hand) (hp : p.length ≤ s.rest.flatten.length)
    (heq : wrapHandshakeRecord m versionTLS10 ++ p = client.flatten) :
    taken.flatten = wrapHandshakeRecord m versionTLS10 ∧ p = s.rest.flatten ∧
      OneRecord m ∧ m = s.hand.take (4 + handshakeLenAt s.hand) := by
  have hne : s.hand ≠ [] := by
    intro h0
    rw [h0, List.length_nil] at hhand
    omega
  rw [h.split, List.flatten_append] at heq
  have hlen := congrArg List.length heq
  rw [List.length_append, List.length_append, wrapHandshakeRecord_length] at hlen
  have hge := h.hand_le hne
  obtain ⟨htaken, hrest⟩ := List.append_inj heq
    (by rw [wrapHandshakeRecord_length]; omega)
  obtain ⟨hmhand, hone⟩ := h.one_record hhand htaken.symm hm
  refine ⟨htaken.symm, hrest, hone, ?_⟩
  rw [← hmhand, hone.whole, List.take_length]

/-! ## What a capture takes -/

/-- The reads of a target that reports no error. -/
theorem Capture.readLoop_unread (env : CaptureEnv) (n : Nat) (target : List Bytes)
    (c : Capture) :
    ∃ took unread, target = took ++ unread ∧
      (readLoop env n (target.map (⟨·, none⟩)) c).2 = unread.map (⟨·, none⟩) ∧
      (took.flatten = [] ↔ (target.take n).flatten = []) := by
  induction n generalizing target c with
  | zero => exact ⟨[], target, rfl, rfl, Iff.rfl⟩
  | succ n ih =>
      cases target with
      | nil => exact ⟨[], [], rfl, rfl, Iff.rfl⟩
      | cons b target =>
          rw [List.map_cons, readLoop]
          by_cases hb : b = []
          · -- An empty read only costs one of the reads.
            obtain ⟨took, unread, hsplit, hunread, hiff⟩ := ih target c
            rw [if_pos hb]
            refine ⟨b :: took, unread, by rw [hsplit, List.cons_append], hunread, ?_⟩
            rw [hb, List.take_succ_cons, List.flatten_cons, List.flatten_cons]
            exact hiff
          · have hfirst : ∀ l : List Bytes, (b :: l).flatten ≠ [] := by
              intro l h0
              rw [List.flatten_cons, List.append_eq_nil_iff] at h0
              exact hb h0.1
            have htook : ∀ l : List Bytes,
                ((b :: l).flatten = [] ↔ ((b :: target).take (n + 1)).flatten = []) :=
              fun l => iff_of_false (hfirst l) (hfirst _)
            rw [if_neg hb]
            split
            · exact ⟨[b], target, rfl, rfl, htook []⟩
            · dsimp only
              cases c.feed env b with
              | done res => exact ⟨[b], target, rfl, rfl, htook []⟩
              | more c =>
                  obtain ⟨took, unread, hsplit, hunread, -⟩ := ih target c
                  exact ⟨b :: took, unread, by rw [hsplit, List.cons_append], hunread,
                    htook took⟩

/-- The bytes a capture leaves are all the target's only if it saw none. -/
theorem Visit.captured_unread (v : Visit) (req : Request) :
    ((v.captured req).2.map (·.bytes)).flatten = v.target.flatten ↔
      (v.target.take maxTargetReads).flatten = [] := by
  obtain ⟨took, unread, hsplit, hunread, hiff⟩ := Capture.readLoop_unread
    ⟨req.mode, fun suite group => (v.later.lookupAmortize (req.query suite group) v.now).2⟩
    maxTargetReads v.target {}
  have hbytes : (v.captured req).2.map (·.bytes) = unread := by
    show (Capture.readLoop _ maxTargetReads _ {}).2.map (·.bytes) = unread
    rw [hunread, List.map_map]
    exact List.map_id' unread
  have hflat : v.target.flatten = took.flatten ++ unread.flatten := by
    rw [hsplit, List.flatten_append]
  rw [hbytes, ← hiff, hflat]
  exact List.self_eq_append_left

/-! ## The connection as a whole -/

namespace Visit

variable {v : Visit} {m : Mirrored}

/-- `readHandshake` on the client's bytes. -/
def read (v : Visit) : Input × Except ReadError Bytes :=
  (Input.mk [] [] v.client).readHandshake

/-- The four ways to end in a mirror. -/
inductive Ended (v : Visit) : Mirrored → Prop where
  | unread {e : ReadError} (hread : v.read.2 = .error e) :
      Ended v (v.mirrorAfterFailedAuth none e.sent v.read.1.rest)
  | refused {msg : Bytes} {e : ReadError} (hread : v.read.2 = .ok msg)
      (hneg : negotiate v.hello msg = .error e) :
      Ended v (v.mirrorAfterFailedAuth none e.sent v.read.1.rest)
  | mirrored {msg : Bytes} {ch : ClientHelloMsg} {vers : UInt16} (hread : v.read.2 = .ok msg)
      (hneg : negotiate v.hello msg = .ok (ch, vers)) (hroute : v.route ch vers = .mirror ch) :
      Ended v (v.mirrorAfterFailedAuth (some ch) [] v.read.1.rest)
  | captured {msg : Bytes} {ch : ClientHelloMsg} {vers : UInt16} {req : Request}
      (hread : v.read.2 = .ok msg) (hneg : negotiate v.hello msg = .ok (ch, vers))
      (hroute : v.route ch vers = .dial req) (hch : req.ch = ch) :
      Ended v (v.mirrorAfterCapture req v.read.1.rest)

theorem server_ended (h : v.server = some m) : v.Ended m := by
  unfold server readClientHello at h
  rcases hr : (Input.mk [] [] v.client).readHandshake with ⟨s, res⟩
  have hrest : s.rest = v.read.1.rest := by rw [read, hr]
  have hres : v.read.2 = res := by rw [read, hr]
  rw [hr] at h
  cases res with
  | error e =>
      dsimp only at h
      rw [hrest] at h
      cases h
      exact .unread hres
  | ok msg =>
      dsimp only at h
      cases hneg : negotiate v.hello msg with
      | error e =>
          rw [hneg] at h
          dsimp only at h
          rw [hrest] at h
          cases h
          exact .refused hres hneg
      | ok p =>
          obtain ⟨ch, vers⟩ := p
          obtain ⟨hmirror, hdial⟩ := route_ch v vers (negotiate_ok hneg).1
          rw [hneg] at h
          dsimp only at h
          rw [hrest] at h
          cases hroute : v.route ch vers with
          | mirror ch' =>
              obtain rfl := hmirror ch' hroute
              rw [hroute] at h
              cases h
              exact .mirrored hres hneg hroute
          | zeroDial =>
              rw [hroute] at h
              cases h
          | dial req =>
              rw [hroute] at h
              dsimp only at h
              split at h
              · cases h
                exact .captured hres hneg hroute (hdial req hroute)
              · cases h

/-- A message that was read, and the reads it came from. -/
theorem read_ok {msg : Bytes} (h : v.read.2 = .ok msg) :
    ∃ taken s, v.read.1.rest = s.rest ∧ Reading v.client taken s ∧
      4 + handshakeLenAt s.hand ≤ s.hand.length ∧
      msg = s.hand.take (4 + handshakeLenAt s.hand) := by
  rcases readHandshake_cases v.client with ⟨e, he, -⟩ | ⟨msg', taken, s, hok, hrest⟩
  · have hcontra := h.symm.trans he
    cases hcontra
  · have hsame := h.symm.trans hok
    simp only [Except.ok.injEq] at hsame
    rw [← hsame] at hrest
    exact ⟨taken, s, hrest⟩

/-- The replay of a hello, followed by at most the unread bytes, makes up the
client's bytes only if the hello is replayable. -/
theorem replayable_of_eq {msg p : Bytes} {ch : ClientHelloMsg} {vers : UInt16}
    (hread : v.read.2 = .ok msg) (hneg : negotiate v.hello msg = .ok (ch, vers))
    (hp : p.length ≤ v.read.1.rest.flatten.length)
    (heq : wrapHandshakeRecord ch.original versionTLS10 ++ p = v.client.flatten) :
    p = v.read.1.rest.flatten ∧ ∃ taken, v.Replayable taken v.read.1.rest ch vers := by
  obtain ⟨taken, s, hrest, hreading, hhand, hmsg⟩ := read_ok hread
  have hlen := (negotiate_ok hneg).2
  rw [hmsg, List.length_take, Nat.min_eq_left hhand] at hlen
  rw [hrest] at hp ⊢
  obtain ⟨hrecord, hpeq, hone, horig⟩ := hreading.replayed hhand hlen hp heq
  refine ⟨hpeq, taken, hreading.split, hrecord, hone, ?_⟩
  rw [horig, ← hmsg]
  exact hneg

theorem Replayable.read {taken rest : List Bytes} {ch : ClientHelloMsg} {vers : UInt16}
    (h : v.Replayable taken rest ch vers) :
    v.read.2 = .ok ch.original ∧ v.read.1.rest.flatten = rest.flatten := by
  rw [Visit.read, h.split]
  exact readHandshake_wrap rest h.one h.record

/-- A connection that handed on exactly the bytes of either side was
transparent. -/
theorem Ended.transparent (h : v.Ended m) (htarget : m.toTarget = v.client.flatten)
    (hclient : m.toClient = v.target.flatten) : v.Transparent := by
  cases h with
  | @unread e hread =>
      -- The bytes taken in are gone, so there were none.
      rcases readHandshake_cases v.client with ⟨-, -, taken, hsplit, hnil⟩ | ⟨msg, _, _, hok, -⟩
      · refine .inl ?_
        have hflat : v.read.1.rest.flatten = taken.flatten ++ v.read.1.rest.flatten := by
          rw [← List.flatten_append, ← show v.client = taken ++ v.read.1.rest from hsplit]
          exact htarget
        have htaken : taken.flatten = [] := List.self_eq_append_left.mp hflat
        rw [hsplit, List.flatten_append, htaken, hnil htaken]
        rfl
      · have hcontra := hread.symm.trans hok
        cases hcontra
  | @refused msg e _ hneg =>
      exact absurd (List.self_eq_append_left.mp hclient.symm) (negotiate_error hneg)
  | @mirrored msg ch vers hread hneg hroute =>
      obtain ⟨-, taken, hrep⟩ := replayable_of_eq hread hneg (Nat.le_refl _) htarget
      refine .inr ⟨taken, _, ch, vers, hrep, ?_⟩
      intro req hdial
      rw [hroute] at hdial
      cases hdial
  | @captured msg ch vers req hread hneg hroute hch =>
      dsimp only [mirrorAfterCapture] at htarget hclient
      rw [hch] at htarget
      unfold Transparent Undisturbed
      split at htarget
      next hu =>
        obtain ⟨hp, taken, hrep⟩ := replayable_of_eq hread hneg
          (by rw [List.length_take]; omega) htarget
        rw [if_pos hu, captured_unread] at hclient
        refine .inr ⟨taken, _, ch, vers, hrep, fun _ _ => ?_⟩
        rw [if_pos hu]
        exact ⟨(List.take_eq_self_iff _).mp hp, hclient⟩
      next hu =>
        obtain ⟨hp, taken, hrep⟩ := replayable_of_eq hread hneg (Nat.zero_le _) htarget
        rw [if_neg hu] at hclient
        refine .inr ⟨taken, _, ch, vers, hrep, fun _ _ => ?_⟩
        rw [if_neg hu]
        exact ⟨hp.symm, hclient.symm⟩

theorem Ended.exact_of_silent (h : v.Ended m) (hsilent : v.client.flatten = []) :
    m.toTarget = v.client.flatten ∧ m.toClient = v.target.flatten := by
  have hread : v.read = (⟨[], [], []⟩, .error .closed) := readHandshake_silent hsilent
  cases h with
  | unread he =>
      rw [hread] at he
      cases he
      rw [hread, hsilent]
      exact ⟨rfl, rfl⟩
  | refused hok _ => rw [hread] at hok; cases hok
  | mirrored hok _ _ => rw [hread] at hok; cases hok
  | captured hok _ _ _ => rw [hread] at hok; cases hok

theorem Ended.exact_of_replayable (h : v.Ended m) {taken rest : List Bytes}
    {ch : ClientHelloMsg} {vers : UInt16} (hrep : v.Replayable taken rest ch vers)
    (hquiet : ∀ req, v.route ch vers = .dial req → v.Undisturbed rest) :
    m.toTarget = v.client.flatten ∧ m.toClient = v.target.flatten := by
  obtain ⟨hread, hrest⟩ := hrep.read
  have hclient : v.client.flatten
      = wrapHandshakeRecord ch.original versionTLS10 ++ rest.flatten := by
    rw [hrep.split, List.flatten_append, hrep.record]
  cases h with
  | unread he => rw [hread] at he; cases he
  | refused hok hneg =>
      rw [hread] at hok
      cases hok
      rw [hrep.accepted] at hneg
      cases hneg
  | mirrored hok hneg _ =>
      rw [hread] at hok
      cases hok
      rw [hrep.accepted] at hneg
      cases hneg
      rw [mirrorAfterFailedAuth, hrest, hclient]
      exact ⟨rfl, rfl⟩
  | @captured _ _ _ req hok hneg hroute hch =>
      rw [hread] at hok
      cases hok
      rw [hrep.accepted] at hneg
      cases hneg
      have hq := hquiet _ hroute
      dsimp only [mirrorAfterCapture]
      rw [hch, hrest, hclient]
      unfold Undisturbed at hq
      split at hq
      next hu =>
        rw [if_pos hu, if_pos hu, List.take_of_length_le hq.1]
        exact ⟨rfl, (captured_unread v req).mpr hq.2⟩
      next hu =>
        rw [if_neg hu, if_neg hu, hq.1, hq.2]
        exact ⟨rfl, rfl⟩

/-- **What both sides see**: a mirrored connection hands on exactly the bytes of
either side if and only if it is transparent. -/
theorem mirror_exact_iff (h : v.server = some m) :
    m.toTarget = v.client.flatten ∧ m.toClient = v.target.flatten ↔ v.Transparent := by
  have hend := server_ended h
  constructor
  · rintro ⟨htarget, hclient⟩
    exact hend.transparent htarget hclient
  · rintro (hsilent | ⟨taken, rest, ch, vers, hrep, hquiet⟩)
    · exact hend.exact_of_silent hsilent
    · exact hend.exact_of_replayable hrep hquiet

end Visit

/-- A visit without keys, from a client that sends `client`, to a target that
sends one byte. -/
def sampleVisit (client : List Bytes) : Visit :=
  { crypto := ⟨fun _ _ => none, fun _ _ _ => none, fun _ _ _ _ => none⟩
    auth := { privateKey := [], shortIds := [] }, readings := ⟨0, 0, 0, []⟩
    dest := str "a.io:443", now := 0, client := client, target := [[7]] }

/-- A TLS 1.2 hello without extensions. -/
def plainHello : Bytes :=
  [1, 0, 0, 41, 3, 3] ++ List.replicate 32 9 ++ [0, 0, 2, 0x13, 1, 1, 0]

theorem plainHello_mirror_exact :
    (sampleVisit [wrapHandshakeRecord plainHello versionTLS10, str "more"]).server
      = some ⟨wrapHandshakeRecord plainHello versionTLS10 ++ str "more", [7]⟩ ∧
    (sampleVisit [wrapHandshakeRecord plainHello versionTLS10, str "more"]).Transparent := by
  have h : (sampleVisit [wrapHandshakeRecord plainHello versionTLS10, str "more"]).server
      = some ⟨wrapHandshakeRecord plainHello versionTLS10 ++ str "more", [7]⟩ := by
    decide +kernel
  exact ⟨h, (Visit.mirror_exact_iff h).mp (by decide +kernel)⟩

/-- A request that is not TLS does not reach the target, and to a message that
is not a hello the server answers itself, with an alert. -/
theorem plain_request_swallowed :
    (sampleVisit [str "GET / HTTP/1.1"]).server = some ⟨[], [7]⟩ ∧
    (sampleVisit [str "GET / HTTP/1.1"]).client.flatten ≠ [] ∧
    (sampleVisit [wrapHandshakeRecord [0xff, 0, 0, 0] versionTLS10]).server
      = some ⟨[], [21, 3, 1, 0, 2, 2, 10, 7]⟩ := by
  decide +kernel

end Reality
