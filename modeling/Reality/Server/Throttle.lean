import Reality.Kit.Assoc
import Reality.Kit.Bytes
import Reality.Kit.Clock
import Reality.Kit.FixedWindow
import Reality.Kit.Run

/-!
# The throttle of failed authentications

`authFailThrottled` (server_amortize.go): every failed authentication dials the
target and mirrors it, so a source that fails often is cut off. The table has a
counter and the time of its first failure for each host, is read and written
under one mutex, and is thrown away when it is full and a new host comes.

Between two rebuilds the entry of a host is a limiter by fixed windows
(`Kit.FixedWindow`), whatever the other hosts do.
-/

namespace Reality

open Kit

def authFailWindow : Int := minute

def authFailLimit : Nat := 20

def authFailMaxEntries : Nat := 10000

/-- The host `net.SplitHostPort` finds, or none for its errors. -/
def splitHostPort (hostport : Bytes) : Option Bytes :=
  match lastIndexByte hostport 58 with
  | none => none
  | some i =>
      if hostport.head? = some 91 then
        match hostport.findIdx? (· == 93) with
        | none => none
        | some e =>
            -- The first `]` has to stand just before the last `:`.
            if e + 1 ≠ i then none
            else if 91 ∈ hostport.drop 1 || 93 ∈ hostport.drop (e + 1) then none
            else some ((hostport.take e).drop 1)
      else if 58 ∈ hostport.take i then none
      else if 91 ∈ hostport || 93 ∈ hostport then none
      else some (hostport.take i)

/-- The host a failure is charged to. -/
def authFailHost (remoteAddr : Bytes) : Bytes := (splitHostPort remoteAddr).getD remoteAddr

/-- `authFailThrottle.entries`; an `authFailEntry` is a counter with its first
failure, and the nil map before the first call reads as an empty one. -/
abbrev AuthFailTable : Type := AList (fun _ : Bytes => FixedWindow)

/-- The call finds a full table and a host that is not in it. -/
def authFailRebuilds (entries : AuthFailTable) (remoteAddr : Bytes) : Bool :=
  authFailHost remoteAddr ∉ entries && size entries ≥ authFailMaxEntries

def authFailThrottled (entries : AuthFailTable) (remoteAddr : Bytes) (now : Int) :
    AuthFailTable × Bool :=
  let host := authFailHost remoteAddr
  match entries.lookup host with
  | none =>
      let entries := if size entries ≥ authFailMaxEntries then ∅ else entries
      (entries.insert host ⟨1, now⟩, false)
  | some e =>
      if timeSub now e.first > authFailWindow then (entries.insert host ⟨1, now⟩, false)
      else (entries.insert host ⟨e.count + 1, e.first⟩, e.count + 1 > authFailLimit)

/-- What a call of `authFailThrottled` answered, and whether it made a new table. -/
structure ThrottleOut where
  throttled : Bool
  rebuilt : Bool
  deriving DecidableEq

/-- Calls from any addresses, one after the other. -/
def throttleMachine : Machine AuthFailTable (Bytes × Int) ThrottleOut where
  step entries x :=
    let r := authFailThrottled entries x.1 x.2
    some (r.1, ⟨r.2, authFailRebuilds entries x.1⟩)

abbrev ThrottleTrace : Type := List ((Bytes × Int) × ThrottleOut)

/-- A call of `host` that is let through within a window from `a` on. -/
def mirroredIn (host : Bytes) (a : Int) (x : (Bytes × Int) × ThrottleOut) : Bool :=
  authFailHost x.1.1 = host && !x.2.throttled && a ≤ x.1.2 && x.1.2 ≤ a + authFailWindow

/-! ## One call -/

section Call

variable {entries : AuthFailTable} {remoteAddr host : Bytes} {now : Int}

theorem authFailWindow_lt_timeSub {t u : Int} :
    timeSub t u > authFailWindow ↔ t - u > authFailWindow := by
  simp only [timeSub, authFailWindow, minute, second, minDuration, maxDuration]
  omega

/-- A host that is not in the table. -/
theorem authFailThrottled_new (hl : entries.lookup (authFailHost remoteAddr) = none) :
    authFailThrottled entries remoteAddr now
      = ((if size entries ≥ authFailMaxEntries then ∅ else entries).insert
          (authFailHost remoteAddr) ⟨1, now⟩, false) := by
  simp only [authFailThrottled, hl]

/-- A host that is in the table. -/
theorem authFailThrottled_known {w : FixedWindow}
    (hl : entries.lookup (authFailHost remoteAddr) = some w) :
    authFailThrottled entries remoteAddr now
      = (entries.insert (authFailHost remoteAddr)
          (FixedWindow.call authFailWindow authFailLimit (some w) now).1,
        (FixedWindow.call authFailWindow authFailLimit (some w) now).2) := by
  simp only [authFailThrottled, hl, FixedWindow.call, authFailWindow_lt_timeSub]
  split <;> rfl

/-- The entry of the host that calls is a fixed window. -/
theorem authFailThrottled_self (entries : AuthFailTable) (remoteAddr : Bytes) (now : Int) :
    let w := FixedWindow.call authFailWindow authFailLimit
      (entries.lookup (authFailHost remoteAddr)) now
    (authFailThrottled entries remoteAddr now).1.lookup (authFailHost remoteAddr) = some w.1 ∧
      (authFailThrottled entries remoteAddr now).2 = w.2 := by
  cases hl : entries.lookup (authFailHost remoteAddr) with
  | none =>
      rw [authFailThrottled_new hl]
      exact ⟨AList.lookup_insert _, rfl⟩
  | some w =>
      rw [authFailThrottled_known hl]
      exact ⟨AList.lookup_insert _, rfl⟩

/-- Without a rebuild the entries of other hosts stay. -/
theorem lookup_authFailThrottled_ne (h : host ≠ authFailHost remoteAddr)
    (hkeep : authFailRebuilds entries remoteAddr = false) :
    (authFailThrottled entries remoteAddr now).1.lookup host = entries.lookup host := by
  cases hl : entries.lookup (authFailHost remoteAddr) with
  | none =>
      have hroom : ¬ size entries ≥ authFailMaxEntries := by
        simpa [authFailRebuilds, AList.lookup_eq_none.mp hl] using hkeep
      rw [authFailThrottled_new hl, if_neg hroom]
      exact AList.lookup_insert_ne h
  | some w =>
      rw [authFailThrottled_known hl]
      exact AList.lookup_insert_ne h

theorem size_authFailThrottled (hsize : size entries ≤ authFailMaxEntries) (remoteAddr : Bytes)
    (now : Int) : size (authFailThrottled entries remoteAddr now).1 ≤ authFailMaxEntries := by
  cases hl : entries.lookup (authFailHost remoteAddr) with
  | none =>
      have hout : authFailHost remoteAddr ∉ entries := AList.lookup_eq_none.mp hl
      rw [authFailThrottled_new hl]
      by_cases hfull : size entries ≥ authFailMaxEntries
      · rw [if_pos hfull, size_insert_new (AList.notMem_empty _)]
        decide
      · rw [if_neg hfull, size_insert_new hout]
        omega
  | some w =>
      have hin : authFailHost remoteAddr ∈ entries := by
        rw [← AList.lookup_isSome, hl]
        rfl
      rw [authFailThrottled_known hl, size_insert hin]
      exact hsize

end Call

/-! ## Whole runs -/

/-- A host's entry after a trace: it began at a call of the trace, and covers what
was let through. -/
structure HostThrottled (host : Bytes) (a : Int) (tr : ThrottleTrace) (entries : AuthFailTable) :
    Prop where
  began : ∀ w, entries.lookup host = some w → ∃ x ∈ tr, x.1.2 = w.first
  within : tr.countP (mirroredIn host a)
    ≤ FixedWindow.allowance authFailWindow authFailLimit a (entries.lookup host)

variable {host remoteAddr : Bytes} {a now : Int} {tr : ThrottleTrace} {entries : AuthFailTable}

theorem countP_mirroredIn_eq_zero (hclock : ∀ x ∈ tr, x.1.2 ≤ now) (hearly : now < a) :
    tr.countP (mirroredIn host a) = 0 := by
  rw [List.countP_eq_zero]
  intro x hx hin
  have hle := hclock x hx
  simp only [mirroredIn, Bool.and_eq_true, decide_eq_true_eq] at hin
  omega

/-- One call keeps it. -/
theorem HostThrottled.step (h : HostThrottled host a tr entries)
    (hclock : ∀ x ∈ tr, x.1.2 ≤ now) (hkeep : authFailRebuilds entries remoteAddr = false) :
    HostThrottled host a
      (tr ++ [((remoteAddr, now), ⟨(authFailThrottled entries remoteAddr now).2, false⟩)])
      (authFailThrottled entries remoteAddr now).1 := by
  by_cases hhost : host = authFailHost remoteAddr
  · subst hhost
    obtain ⟨hentry, hflag⟩ := authFailThrottled_self entries remoteAddr now
    have hfirst : ∀ w, entries.lookup (authFailHost remoteAddr) = some w → w.first ≤ now := by
      intro w hw
      obtain ⟨x, hx, hxw⟩ := h.began w hw
      exact hxw ▸ hclock x hx
    constructor
    · intro w hw
      rw [hentry] at hw
      cases hw
      generalize hl : entries.lookup (authFailHost remoteAddr) = old
      cases old with
      | none => exact ⟨_, List.mem_append_right _ List.mem_cons_self, rfl⟩
      | some w =>
          simp only [FixedWindow.call]
          split
          · exact ⟨_, List.mem_append_right _ List.mem_cons_self, rfl⟩
          · obtain ⟨x, hx, hxw⟩ := h.began w hl
            exact ⟨x, List.mem_append_left _ hx, hxw⟩
    · have hcall := FixedWindow.call_allowance (by decide) h.within
        (countP_mirroredIn_eq_zero hclock) hfirst
      rw [List.countP_append, List.countP_singleton, hentry, hflag]
      simpa [mirroredIn, and_assoc] using hcall
  · have hentry : (authFailThrottled entries remoteAddr now).1.lookup host
        = entries.lookup host := lookup_authFailThrottled_ne hhost hkeep
    constructor
    · intro w hw
      rw [hentry] at hw
      obtain ⟨x, hx, hxw⟩ := h.began w hw
      exact ⟨x, List.mem_append_left _ hx, hxw⟩
    · rw [List.countP_append, List.countP_singleton, hentry]
      simpa [mirroredIn, Ne.symm hhost] using h.within

/-- **The table is bounded, and so is what a host gets through**: at most twice the
limit in any interval as long as a window, as long as the table is not rebuilt. -/
theorem auth_failures_throttled {tr : ThrottleTrace} {entries : AuthFailTable}
    (hrun : throttleMachine.Run ∅ tr entries)
    (hclock : (tr.map fun x => x.1.2).Pairwise (· ≤ ·)) :
    size entries ≤ authFailMaxEntries ∧
      ((∀ x ∈ tr, x.2.rebuilt = false) →
        ∀ host a, tr.countP (mirroredIn host a) ≤ 2 * authFailLimit) := by
  constructor
  · refine hrun.invariant (I := fun _ entries => size entries ≤ authFailMaxEntries) ?_ ?_
    · exact Nat.zero_le _
    · intro tr s x s' out hsize hstep
      cases hstep
      exact size_authFailThrottled hsize x.1 x.2
  · intro hkept host a
    have hinv : HostThrottled host a tr entries := by
      induction hrun with
      | nil => exact ⟨fun w hw => by simp at hw, Nat.zero_le _⟩
      | @snoc tr s s' x out _ hstep ih =>
          cases hstep
          rw [List.map_append, List.pairwise_append] at hclock
          obtain ⟨hbefore, -, hlast⟩ := hclock
          have hle : ∀ y ∈ tr, y.1.2 ≤ x.2 := fun y hy =>
            hlast y.1.2 (List.mem_map_of_mem hy) x.2 (List.mem_map_of_mem List.mem_cons_self)
          have hkeep : authFailRebuilds s x.1 = false :=
            hkept _ (List.mem_append_right _ List.mem_cons_self)
          have hnext := HostThrottled.step
            (ih hbefore fun y hy => hkept y (List.mem_append_left _ hy)) hle hkeep
          rwa [← hkeep] at hnext
    exact hinv.within.trans (FixedWindow.allowance_le ..)

/-- One host with changing ports: the first twenty calls of a window are let
through, the next one is not. -/
theorem auth_failures_throttled_burst :
    ∃ tr entries, throttleMachine.Run ∅ tr entries ∧
      (tr.map fun x => x.1.2).Pairwise (· ≤ ·) ∧ (∀ x ∈ tr, x.2.rebuilt = false) ∧
      (tr.countP (mirroredIn (str "192.0.2.1") 0) = 20 ∧ tr.any fun x => x.2.throttled) ∧
      size entries ≤ authFailMaxEntries ∧
      ∀ host a, tr.countP (mirroredIn host a) ≤ 2 * authFailLimit := by
  have hexec : ∃ tr entries, throttleMachine.Run ∅ tr entries ∧
      (tr.map fun x => x.1.2).Pairwise (· ≤ ·) ∧ (∀ x ∈ tr, x.2.rebuilt = false) ∧
      (tr.countP (mirroredIn (str "192.0.2.1") 0) = 20 ∧ tr.any fun x => x.2.throttled) :=
    Machine.Run.exists_of_exec
      (List.replicate 10 (str "192.0.2.1:4000", 0) ++ List.replicate 11 (str "192.0.2.1:4001", 7))
      (by decide +kernel)
  obtain ⟨tr, entries, hrun, hclock, hkept, hburst⟩ := hexec
  obtain ⟨hsize, hhosts⟩ := auth_failures_throttled hrun hclock
  exact ⟨tr, entries, hrun, hclock, hkept, hburst, hsize, hhosts hkept⟩

end Reality
