import Mathlib.Logic.Function.Basic
import Reality.Cache.Amortize
import Reality.Kit.Feed
import Reality.Tls.Record

/-!
# Capturing the target's flight

`captureTargetRecords` (server_amortize.go): read from the target until the
records R0..R6 are known or the cache answers for R1..R6. The parser keeps
half-processed state between reads: the bytes not yet consumed, the length a
seen header announced, and slots of the length vector that are assigned
BEFORE their record is complete (a large R2, and R6).

The cache is a parameter (`look`): what it answers after R0. The caller
applies the lookup's effect to the cache and starts the reprobe.
-/

namespace Reality

open Kit

/-- `maxRecordSize`, the size of the read buffer. -/
def maxRecordSize : Nat := 65536

def maxTargetReads : Nat := 64

inductive NetErr where
  | eof
  | timeout
  | other (text : Bytes)
  deriving DecidableEq

/-- The outcome of one `Read`: the bytes delivered, and an error with or
after them. -/
structure Read where
  bytes : Bytes
  err : Option NetErr := none
  deriving DecidableEq

inductive CaptureError where
  | tooManyReads
  | read (e : NetErr)
  | tooLarge
  | unexpectedRecord (i : Nat)
  | exceedsMax
  | invalidCCS
  | invalidServerHello
  deriving DecidableEq

/-- What `captureTargetRecords` returns besides its error, the buffer it
allocates on the connection, and what the cache answered when asked. -/
structure CaptureVars where
  usedLen : RecordLens := 0
  hello : Option ServerHelloMsg := none
  template : Bytes := []
  path : AmortizePath := .l0
  handshakeBuf : Bool := false
  asked : Option LookupResult := none
  deriving DecidableEq

structure CaptureResult extends CaptureVars where
  err : Option CaptureError
  deriving DecidableEq

/-- The values the function returns: error, lengths, ServerHello, template. -/
def CaptureResult.returned (r : CaptureResult) :
    Option CaptureError × RecordLens × Option ServerHelloMsg × Bytes :=
  (r.err, r.usedLen, r.hello, r.template)

/-- The variables the loops carry from read to read. -/
structure Capture extends CaptureVars where
  saved : Bytes := []
  handshakeLen : Nat := 0
  deriving DecidableEq

structure CaptureEnv where
  mode : AmortizeMode
  look : UInt16 → CurveID → LookupResult

/-- The slot of record `i`. -/
def slot (i : Nat) : Fin 7 := Fin.ofNat 7 i

namespace Capture

def ret (c : Capture) (err : Option CaptureError) : CaptureResult :=
  { c.toCaptureVars with err := err }

def setLen (c : Capture) (i n : Nat) : Capture :=
  { c with usedLen := Function.update c.usedLen (slot i) (n : Int) }

def push (c : Capture) (bytes : Bytes) : Capture := { c with saved := c.saved ++ bytes }

/-! ## One record -/

def checkLength (i len : Nat) : Except CaptureError Nat :=
  if len > maxTLSRecordPayload then .error .exceedsMax
  else if i = 1 && len > 0 && len ≠ 6 then .error .invalidCCS
  else .ok len

/-- The length record `i` announces: checked and read off the header when
none is pending, and 0 while the header is not all there. -/
def announced (c : Capture) (i : Nat) : Except CaptureError Nat :=
  if c.handshakeLen = 0 && recordHeaderLen < c.saved.length then
    if headerOk i c.saved then checkLength i (recordLenAt c.saved)
    else .error (.unexpectedRecord i)
  else checkLength i c.handshakeLen

/-- The slots assigned as soon as the header is seen. -/
def assignEarly (c : Capture) (i len : Nat) : Capture :=
  if i = 2 && len > 512 then { c.setLen 2 len with handshakeBuf := true }
  else if i = 6 && len > 0 then c.setLen 6 len
  else c

/-- How one round of the inner loop ends. -/
inductive Scan where
  | next (c : Capture)
  | stop (c : Capture)
  | done (r : CaptureResult)

/-- The end of a round that used up record `i`. -/
def consume (c : Capture) (i : Nat) : Scan :=
  let c := { c with saved := c.saved.drop c.handshakeLen, handshakeLen := 0 }
  if i = 5 && c.saved = [] || i = 6 then .done (c.ret none) else .next c

/-- The answer that lets the capture skip R1..R6. -/
def l1Lens (res : LookupResult) : Option RecordLens :=
  match res.profile with
  | none => none
  | some p => if res.path = .l1 && validateRecordLens p.recordLens then some p.recordLens
      else none

def validHello (hello : ServerHelloMsg) : Bool :=
  hello.vers = versionTLS12 && hello.supportedVersion = versionTLS13 &&
    cipherSuiteTLS13ByID hello.cipherSuite

/-- The ServerHello message of a complete record R0. -/
def helloBytes (saved : Bytes) (len : Nat) : Bytes := (saved.take len).drop recordHeaderLen

/-- R0 is complete. -/
def serverHello (env : CaptureEnv) (c : Capture) : Scan :=
  let msg := helloBytes c.saved c.handshakeLen
  match unmarshalServerHello msg with
  | none => .done (c.ret (some .invalidServerHello))
  | some hello =>
      if !validHello hello then .done (c.ret (some .invalidServerHello))
      else
        let c := { c.setLen 0 c.handshakeLen with hello := some hello, template := msg }
        if resolveAmortizeMode env.mode = .l0 then c.consume 0
        else
          let res := env.look hello.cipherSuite hello.serverShare.group
          match l1Lens res with
          | some lens =>
              .done ({ c with
                usedLen := Function.update lens 0 (c.handshakeLen : Int)
                path := .l1, asked := some res }.ret none)
          | none => { c with asked := some res }.consume 0

/-- The rest of a round, with the length of record `i` known (or 0). -/
def advance (env : CaptureEnv) (c : Capture) (i len : Nat) : Scan :=
  let c := { c.assignEarly i len with handshakeLen := len }
  if len = 0 || c.saved.length < len then .stop c
  else if i = 0 then c.serverHello env
  else (c.setLen i len).consume i

/-- One round of the inner loop. -/
def index (env : CaptureEnv) (i : Nat) (c : Capture) : Scan :=
  if c.usedLen (slot i) ≠ 0 then .next c
  else if i = 6 && c.saved = [] then .done (c.ret none)
  else
    match c.announced i with
    | .error e => .done (c.ret (some e))
    | .ok len => c.advance env i len

/-- The inner loop from record `i` on, `n` rounds long. -/
def scan (env : CaptureEnv) : Nat → Nat → Capture → Scan
  | 0, _, c => .stop c
  | n + 1, i, c =>
      match c.index env i with
      | .next c => scan env n (i + 1) c
      | r => r

/-! ## The read loop -/

/-- Append what was read and run the inner loop. -/
def feed (env : CaptureEnv) (c : Capture) (bytes : Bytes) : Fed Capture CaptureResult :=
  match (c.push bytes).scan env 7 0 with
  | .next c => .more c
  | .stop c => .more c
  | .done r => .done r

/-- The read limit is reached: a success as soon as R0 was seen. -/
def tooManyReads (c : Capture) : CaptureResult :=
  if c.usedLen 0 ≠ 0 then c.ret none else c.ret (some .tooManyReads)

/-- The read that delivered the last bytes also reported `e`. -/
def endOfData (c : Capture) (e : NetErr) : CaptureResult :=
  if c.usedLen 0 ≠ 0 && c.usedLen 5 ≠ 0 then c.ret none else c.ret (some (.read e))

/-- The outer loop with `n` reads left. It also returns what was not read. -/
def readLoop (env : CaptureEnv) : Nat → List Read → Capture → CaptureResult × List Read
  | 0, reads, c => (c.tooManyReads, reads)
  | _ + 1, [], c => (c.ret (some (.read .eof)), [])
  | n + 1, r :: reads, c =>
      if r.bytes = [] then
        match r.err with
        | some e => (c.ret (some (.read e)), reads)
        | none => readLoop env n reads c
      else if c.saved.length + r.bytes.length > maxRecordSize then
        (c.ret (some .tooLarge), reads)
      else
        match c.feed env r.bytes, r.err with
        | .done res, _ => (res, reads)
        | .more c, none => readLoop env n reads c
        | .more c, some e =>
            if c.saved = [] then (c.endOfData e, reads) else readLoop env n reads c

/-- A read that ends the capture. -/
theorem readLoop_done {env : CaptureEnv} {n : Nat} {r : Read} {reads : List Read} {c : Capture}
    {res : CaptureResult} (hne : r.bytes ≠ [])
    (hfit : c.saved.length + r.bytes.length ≤ maxRecordSize)
    (hf : c.feed env r.bytes = .done res) : readLoop env (n + 1) (r :: reads) c = (res, reads) := by
  rw [readLoop, if_neg hne, if_neg (Nat.not_lt.mpr hfit), hf]

/-- A read after which the loop reads on. -/
theorem readLoop_more {env : CaptureEnv} {n : Nat} {r : Read} {reads : List Read} {c c' : Capture}
    (hne : r.bytes ≠ []) (hfit : c.saved.length + r.bytes.length ≤ maxRecordSize)
    (hf : c.feed env r.bytes = .more c') (herr : r.err = none) :
    readLoop env (n + 1) (r :: reads) c = readLoop env n reads c' := by
  rw [readLoop, if_neg hne, if_neg (Nat.not_lt.mpr hfit), hf, herr]

/-- **The ways one round of the outer loop goes**: it fails, reads nothing, is done, reads
on, or ends with the error that came with the last bytes. -/
theorem readLoop_cases {env : CaptureEnv} {n : Nat} {r : Read} {reads : List Read} {c : Capture}
    {P : CaptureResult × List Read → Prop} (hfail : ∀ e, P (c.ret (some e), reads))
    (hskip : r.bytes = [] → P (readLoop env n reads c))
    (hdone : ∀ res, c.feed env r.bytes = .done res → P (res, reads))
    (hmore : ∀ c', c.feed env r.bytes = .more c' → P (readLoop env n reads c'))
    (hend : ∀ c' e, c.feed env r.bytes = .more c' → P (c'.endOfData e, reads)) :
    P (readLoop env (n + 1) (r :: reads) c) := by
  unfold readLoop
  split
  next hnil =>
    split
    · exact hfail _
    · exact hskip hnil
  · split
    · exact hfail _
    · cases hf : c.feed env r.bytes with
      | done res => exact hdone res hf
      | more c' =>
          cases r.err with
          | none => exact hmore c' hf
          | some e =>
              dsimp only
              split
              · exact hend c' e hf
              · exact hmore c' hf

end Capture

/-! ## What the captured ServerHello is -/

/-- What a round hands on satisfies `P`, and what it returns `Q`. -/
def Capture.Scan.All (P Q : CaptureVars → Prop) : Capture.Scan → Prop
  | .next c => P c.toCaptureVars
  | .stop c => P c.toCaptureVars
  | .done r => Q r.toCaptureVars

/-- `hello` is the parse of the template, which filled record R0. -/
structure Captured (v : CaptureVars) (hello : ServerHelloMsg) : Prop where
  parsed : unmarshalServerHello v.template = some hello
  valid : Capture.validHello hello = true
  r0 : v.usedLen 0 = recordHeaderLen + v.template.length

/-- R0 has not been seen yet, or it was captured. -/
def Started (v : CaptureVars) : Prop :=
  v.usedLen 0 = 0 ∨ ∃ hello, v.hello = some hello ∧ Captured v hello

theorem slot_ne_zero {i : Nat} (h0 : i ≠ 0) (h6 : i ≤ 6) : slot i ≠ 0 := by
  intro h
  have := congrArg Fin.val h
  simp only [slot, Fin.ofNat, Fin.val_zero] at this
  omega

namespace Capture

/-- Everything one round can do to what the capture returns; `done` says
whether the capture ends with it. -/
inductive Round (env : CaptureEnv) (i : Nat) (c : Capture) : Bool → CaptureVars → Prop where
  | same {done} : Round env i c done c.toCaptureVars
  /-- Record `i` got its length, early or complete. -/
  | length {done} {n : Nat} {buf : Bool} (h0 : i ≠ 0) (hempty : c.usedLen (slot i) = 0)
      (hn : n ≤ maxTLSRecordPayload)
      (hbuf : buf = (c.handshakeBuf || decide (i = 2) && decide (512 < n))) :
      Round env i c done
        { c.toCaptureVars with
          usedLen := Function.update c.usedLen (slot i) (n : Int), handshakeBuf := buf }
  /-- R0 was accepted, and the cache not asked or of no help. -/
  | hello {done} {n : Nat} {hello : ServerHelloMsg} {asked : Option LookupResult} (h0 : i = 0)
      (hempty : c.usedLen 0 = 0) (hn : n ≤ maxTLSRecordPayload) (hlen : n ≤ c.saved.length)
      (hm : unmarshalServerHello (helloBytes c.saved n) = some hello)
      (hv : validHello hello = true)
      (hasked : asked = c.asked ∨
        asked = some (env.look hello.cipherSuite hello.serverShare.group)) :
      Round env i c done
        { c.toCaptureVars with
          usedLen := Function.update c.usedLen 0 (n : Int), hello := some hello
          template := helloBytes c.saved n, asked := asked }
  /-- R0 was accepted, and the cache knows the rest. -/
  | answered {n : Nat} {hello : ServerHelloMsg} {lens : RecordLens} (h0 : i = 0)
      (hempty : c.usedLen 0 = 0) (hpos : n ≠ 0) (hn : n ≤ maxTLSRecordPayload)
      (hlen : n ≤ c.saved.length)
      (hm : unmarshalServerHello (helloBytes c.saved n) = some hello)
      (hv : validHello hello = true)
      (hl1 : l1Lens (env.look hello.cipherSuite hello.serverShare.group) = some lens) :
      Round env i c true
        { c.toCaptureVars with
          usedLen := Function.update lens 0 (n : Int), hello := some hello
          template := helloBytes c.saved n, path := .l1
          asked := some (env.look hello.cipherSuite hello.serverShare.group) }

/-- The outcome of a round is one of these. -/
def Scan.From (env : CaptureEnv) (i : Nat) (c : Capture) : Scan → Prop
  | .next c' => Round env i c false c'.toCaptureVars
  | .stop c' => Round env i c false c'.toCaptureVars
  | .done r => Round env i c true r.toCaptureVars

theorem announced_le {c : Capture} {i len : Nat} (h : c.announced i = .ok len) :
    len ≤ maxTLSRecordPayload := by
  have hcheck : ∀ n, checkLength i n = .ok len → len ≤ maxTLSRecordPayload := by
    intro n hn
    unfold checkLength at hn
    split at hn
    · cases hn
    · split at hn
      · cases hn
      · cases hn
        omega
  unfold announced at h
  split at h
  · split at h
    · exact hcheck _ h
    · cases h
  · exact hcheck _ h

theorem consume_from {env : CaptureEnv} {i : Nat} {c c' : Capture}
    (h : ∀ done, Round env i c done c'.toCaptureVars) (k : Nat) :
    (c'.consume k).From env i c := by
  unfold consume
  dsimp only
  split
  · exact h true
  · exact h false

/-- A slot assigned early is assigned the same length again. -/
theorem update_assignEarly (i len : Nat) (c : Capture) :
    Function.update (c.assignEarly i len).usedLen (slot i) (len : Int)
      = Function.update c.usedLen (slot i) (len : Int) := by
  unfold assignEarly
  split
  next h2 =>
    simp only [Bool.and_eq_true, decide_eq_true_eq] at h2
    obtain rfl := h2.1
    exact Function.update_idem _ _ _
  · split
    next h6 =>
      simp only [Bool.and_eq_true, decide_eq_true_eq] at h6
      obtain rfl := h6.1
      exact Function.update_idem _ _ _
    · rfl

/-- Beside the slot only a large R2 leaves a trace, the buffer. -/
theorem assignEarly_vars (i len : Nat) (c : Capture) :
    (c.assignEarly i len).toCaptureVars =
      { c.toCaptureVars with
        usedLen := (c.assignEarly i len).usedLen
        handshakeBuf := c.handshakeBuf || decide (i = 2) && decide (512 < len) } := by
  unfold assignEarly
  split
  next h2 =>
    rw [h2, Bool.or_true]
    rfl
  next h2 =>
    rw [Bool.not_eq_true] at h2
    rw [h2, Bool.or_false]
    split <;> rfl

/-- Seeing the header of record `i` is a step of the round. -/
theorem assignEarly_round {env : CaptureEnv} {i len : Nat} {c : Capture}
    (hempty : c.usedLen (slot i) = 0) (hle : len ≤ maxTLSRecordPayload) (done : Bool) :
    Round env i c done (c.assignEarly i len).toCaptureVars := by
  unfold assignEarly
  split
  next h2 =>
    simp only [Bool.and_eq_true, decide_eq_true_eq] at h2
    obtain rfl := h2.1
    exact .length (by decide) hempty hle (by simp [h2.2])
  · split
    next h6 =>
      simp only [Bool.and_eq_true, decide_eq_true_eq] at h6
      obtain rfl := h6.1
      exact .length (by decide) hempty hle (by simp)
    · exact .same

theorem serverHello_from {env : CaptureEnv} {c : Capture} {len : Nat} (hempty : c.usedLen 0 = 0)
    (hpos : len ≠ 0) (hle : len ≤ maxTLSRecordPayload) (hlen : len ≤ c.saved.length) :
    ({ c with handshakeLen := len }.serverHello env).From env 0 c := by
  unfold serverHello
  dsimp only
  split
  · exact .same
  next hello hm =>
    split
    · exact .same
    next hv =>
      have hv : validHello hello = true := by simpa using hv
      split
      · refine consume_from (fun done => ?_) 0
        exact .hello rfl hempty hle hlen hm hv (.inl rfl)
      · split
        next lens hl1 => exact .answered rfl hempty hpos hle hlen hm hv hl1
        · refine consume_from (fun done => ?_) 0
          exact .hello rfl hempty hle hlen hm hv (.inr rfl)

theorem advance_from {env : CaptureEnv} {i len : Nat} {c : Capture}
    (hempty : c.usedLen (slot i) = 0) (hle : len ≤ maxTLSRecordPayload) :
    (c.advance env i len).From env i c := by
  unfold advance
  dsimp only
  split
  · exact assignEarly_round hempty hle false
  next hlen =>
    simp only [Bool.or_eq_true, decide_eq_true_eq, not_or, not_lt] at hlen
    split
    next h0 =>
      -- R0 is never assigned early.
      subst h0
      have hc : c.assignEarly 0 len = c := by simp [assignEarly]
      rw [hc] at hlen ⊢
      exact serverHello_from hempty hlen.1 hle hlen.2
    next h0 =>
      refine consume_from (fun done => ?_) i
      simp only [setLen]
      rw [update_assignEarly, assignEarly_vars]
      exact .length h0 hempty hle rfl

/-- **Inversion of a round.** -/
theorem index_from (env : CaptureEnv) (i : Nat) (c : Capture) :
    (c.index env i).From env i c := by
  unfold index
  split
  · exact .same
  next hempty =>
    have hempty : c.usedLen (slot i) = 0 := by simpa using hempty
    split
    · exact .same
    · split
      · exact .same
      next len hann => exact advance_from hempty (announced_le hann)

theorem helloBytes_length {saved : Bytes} {len : Nat} (hlen : len ≤ saved.length)
    (hne : helloBytes saved len ≠ []) :
    (len : Int) = recordHeaderLen + (helloBytes saved len).length := by
  have hpos := List.length_pos_of_ne_nil hne
  simp only [helloBytes, List.length_drop, List.length_take] at hpos ⊢
  omega

theorem unmarshalServerHello_ne_nil {data : Bytes} {m : ServerHelloMsg}
    (h : unmarshalServerHello data = some m) : data ≠ [] := by
  rintro rfl
  cases h

theorem Round.started {env : CaptureEnv} {i : Nat} {c : Capture} {done : Bool}
    {v : CaptureVars} (hr : Round env i c done v) (hi : i ≤ 6)
    (h : Started c.toCaptureVars) : Started v := by
  have hcap : ∀ {n : Nat} {hello : ServerHelloMsg} (lens : RecordLens) (path buf asked),
      n ≤ c.saved.length → unmarshalServerHello (helloBytes c.saved n) = some hello →
      validHello hello = true → Started ⟨Function.update lens 0 (n : Int), some hello,
        helloBytes c.saved n, path, buf, asked⟩ := by
    intro n hello lens path buf asked hlen hm hv
    refine .inr ⟨hello, rfl, hm, hv, ?_⟩
    exact (Function.update_self 0 _ lens).trans
      (helloBytes_length hlen (unmarshalServerHello_ne_nil hm))
  cases hr with
  | same => exact h
  | @length _ n buf h0 hempty hn _ =>
      have hr0 : Function.update c.usedLen (slot i) (n : Int) 0 = c.usedLen 0 :=
        Function.update_of_ne (slot_ne_zero h0 hi).symm _ _
      rcases h with h | ⟨hello, hh, hc⟩
      · exact .inl (hr0.trans h)
      · exact .inr ⟨hello, hh, hc.parsed, hc.valid, hr0.trans hc.r0⟩
  | hello h0 hempty hn hlen hm hv hasked => exact hcap _ _ _ _ hlen hm hv
  | answered h0 hempty hpos hn hlen hm hv hl1 => exact hcap _ _ _ _ hlen hm hv

theorem consume_next_r0 {c c' : Capture} {k : Nat} (h0 : c.usedLen 0 ≠ 0)
    (h : c.consume k = .next c') : c'.usedLen 0 ≠ 0 := by
  unfold consume at h
  dsimp only at h
  split at h
  · cases h
  · cases h
    exact h0

theorem serverHello_next_r0 {env : CaptureEnv} {c c' : Capture} (hlen : c.handshakeLen ≠ 0)
    (h : c.serverHello env = .next c') : c'.usedLen 0 ≠ 0 := by
  have hset : Function.update c.usedLen (slot 0) (c.handshakeLen : Int) 0 ≠ 0 := by
    rw [show slot 0 = 0 from rfl, Function.update_self]
    omega
  unfold serverHello at h
  dsimp only at h
  split at h
  · cases h
  · split at h
    · cases h
    · split at h
      · exact consume_next_r0 hset h
      · split at h
        · cases h
        · exact consume_next_r0 hset h

/-- The rounds behind R0 are reached only once R0 has its length. -/
theorem index_next_r0 {env : CaptureEnv} {i : Nat} {c c' : Capture} (hi : i ≤ 6)
    (hr0 : i ≠ 0 → c.usedLen 0 ≠ 0) (h : c.index env i = .next c') : c'.usedLen 0 ≠ 0 := by
  by_cases hempty : c.usedLen 0 = 0
  · obtain rfl : i = 0 := by
      by_contra h0
      exact hr0 h0 hempty
    unfold index at h
    rw [if_neg (by simpa [slot] using hempty), if_neg (by simp)] at h
    split at h
    · cases h
    · unfold advance at h
      dsimp only at h
      split at h
      · cases h
      next hlen =>
        rw [if_pos rfl] at h
        refine serverHello_next_r0 (fun h0 => hlen ?_) h
        simp only [Bool.or_eq_true, decide_eq_true_eq]
        exact .inl h0
  · have hfrom : Round env i c false c'.toCaptureVars := by
      have hf := index_from env i c
      rw [h] at hf
      exact hf
    generalize c'.toCaptureVars = v at hfrom ⊢
    cases hfrom with
    | same => exact hempty
    | length h0 _ _ _ =>
        show Function.update c.usedLen (slot i) _ 0 ≠ 0
        rw [Function.update_of_ne (slot_ne_zero h0 hi).symm]
        exact hempty
    | hello h0 h0' => exact absurd h0' hempty

section
variable {env : CaptureEnv} {P Q : CaptureVars → Prop}
variable (hround : ∀ {i c v}, i ≤ 6 → (i ≠ 0 → c.usedLen 0 ≠ 0) → P c.toCaptureVars →
  Round env i c false v → P v)
variable (hlast : ∀ {i c v}, i ≤ 6 → (i ≠ 0 → c.usedLen 0 ≠ 0) → P c.toCaptureVars →
  Round env i c true v → Q v)
include hround hlast

theorem index_all {i : Nat} (hi : i ≤ 6) {c : Capture} (hr0 : i ≠ 0 → c.usedLen 0 ≠ 0)
    (h : P c.toCaptureVars) : (c.index env i).All P Q := by
  have hfrom := index_from env i c
  cases hc : c.index env i <;> rw [hc] at hfrom
  · exact hround hi hr0 h hfrom
  · exact hround hi hr0 h hfrom
  · exact hlast hi hr0 h hfrom

/-- What every round keeps, a whole scan keeps. -/
theorem scan_all {n i : Nat} (hi : n + i ≤ 7) {c : Capture} (hr0 : i ≠ 0 → c.usedLen 0 ≠ 0)
    (h : P c.toCaptureVars) : (c.scan env n i).All P Q := by
  induction n generalizing i c with
  | zero => exact h
  | succ n ih =>
      have hidx := index_all hround hlast (i := i) (by omega) hr0 h
      rw [scan]
      cases hc : c.index env i with
      | next c' =>
          rw [hc] at hidx
          exact ih (by omega) (fun _ => index_next_r0 (by omega) hr0 hc) hidx
      | stop c' => rwa [hc] at hidx
      | done r => rwa [hc] at hidx

theorem feed_all {c : Capture} (h : P c.toCaptureVars) (bytes : Bytes) :
    match c.feed env bytes with
    | .more c' => P c'.toCaptureVars
    | .done r => Q r.toCaptureVars := by
  have hscan := scan_all hround hlast (n := 7) (i := 0) (by decide) (c := c.push bytes)
    (fun h0 => absurd rfl h0) h
  unfold feed
  cases hs : (c.push bytes).scan env 7 0 <;> rwa [hs] at hscan

/-- What every round keeps holds of what is returned. -/
theorem readLoop_all (hPQ : ∀ v, P v → Q v) {n : Nat} {reads : List Read} {c : Capture}
    (h : P c.toCaptureVars) : Q (readLoop env n reads c).1.toCaptureVars := by
  induction n generalizing reads c with
  | zero =>
      unfold readLoop tooManyReads
      split <;> exact hPQ _ h
  | succ n ih =>
      cases reads with
      | nil => exact hPQ _ h
      | cons r reads =>
          have hfeed := feed_all hround hlast h r.bytes
          refine readLoop_cases (P := fun p => Q p.1.toCaptureVars) (fun e => hPQ _ h)
            (fun _ => ih h) (fun res hf => ?_) (fun c' hf => ?_) (fun c' e hf => ?_)
          · rwa [hf] at hfeed
          · rw [hf] at hfeed
            exact ih hfeed
          · rw [hf] at hfeed
            unfold endOfData
            split <;> exact hPQ _ hfeed

end

end Capture

/-- `captureTargetRecords` on the reads the target's connection delivers; the
second component is what it leaves unread. -/
def captureTargetRecords (env : CaptureEnv) (reads : List Read) :
    CaptureResult × List Read :=
  Capture.readLoop env maxTargetReads reads {}

/-- **A captured ServerHello** is the parse of the returned template, has the
versions and a cipher suite of TLS 1.3, and filled record R0. -/
theorem captureTargetRecords_captured {env : CaptureEnv} {reads : List Read}
    {hello : ServerHelloMsg} (hh : (captureTargetRecords env reads).1.hello = some hello)
    (h0 : (captureTargetRecords env reads).1.usedLen 0 ≠ 0) :
    Captured (captureTargetRecords env reads).1.toCaptureVars hello := by
  have hstart : Started (captureTargetRecords env reads).1.toCaptureVars :=
    Capture.readLoop_all (fun hi _ hc hr => hr.started hi hc)
      (fun hi _ hc hr => hr.started hi hc)
      (fun _ => id) (.inl rfl)
  rcases hstart with h | ⟨hello', hh', hc⟩
  · exact absurd h h0
  · cases hh.symm.trans hh'
    exact hc

/-- A record of application data with payload `payload`. -/
def appDataRecord (payload : Bytes) : Bytes :=
  recordHeader recordTypeApplicationData versionTLS12 payload.length ++ payload

/-- A ServerHello that selects suite 0x1301 and an X25519 key share. -/
def sampleHello : Bytes :=
  [2, 0, 0, 86, 3, 3] ++ List.replicate 32 7 ++ [0, 0x13, 1, 0, 0, 46, 0, 43, 0, 2, 3, 4] ++
    [0, 51, 0, 36, 0, 29, 0, 32] ++ List.replicate 32 9

/-- R0 and R1 of a flight with that ServerHello. -/
def sampleStart : Bytes :=
  wrapHandshakeRecord sampleHello versionTLS12 ++ [20, 3, 3, 0, 1, 1]

/-- The whole flight, with one-byte records R2..R5. -/
def sampleFlight : Bytes :=
  sampleStart ++ appDataRecord [1] ++ appDataRecord [2] ++ appDataRecord [3] ++
    appDataRecord [4]

example : (captureTargetRecords ⟨.l0, fun _ _ => {}⟩ [⟨sampleFlight, none⟩]).1.usedLen
    = ![95, 6, 6, 6, 6, 6, 0] := by
  decide +kernel

end Reality
