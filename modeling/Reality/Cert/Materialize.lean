import Reality.Cert.Fit
import Reality.Kit.Buffers

/-!
# Authenticating a plan

`MaterializeCert` (cert_plan.go) copies the leaf of a plan and writes two things
into the copy: the HMAC of the certificate's key, and, under an ML-DSA key, a
signature over the same HMAC continued with the two hellos. The HMAC objects
are POOLED across handshakes with different keys, and the running hash is summed
in between; the chain is shared with the plan.

Slices are addresses of buffers here, so that what is written and what is shared
is part of the model. An HMAC object is its key and what was written since it was
last reset.
-/

namespace Reality

open Kit

/-- What `MaterializeCert` calls: HMAC-SHA512, the ML-DSA-65 scheme, and the
certificate's private key. -/
structure CertCrypto (Key Priv : Type) where
  hmac : Bytes → Bytes → Bytes
  unmarshalBinaryPrivateKey : Bytes → Option Key
  asPrivateKey : Key → Option Priv
  signTo : Priv → Bytes → Bytes
  ed25519Priv : Bytes
  hmac_length : ∀ key msg, (hmac key msg).length = 64
  signTo_length : ∀ priv msg, (signTo priv msg).length = mldsa65SigSize

/-- What is written of the private key: its public half. -/
def CertCrypto.pub {Key Priv : Type} (c : CertCrypto Key Priv) : Bytes :=
  if 64 ≤ c.ed25519Priv.length then c.ed25519Priv.drop 32 else []

/-! ## HMAC objects and their pool -/

/-- `hmac.New(sha512.New, key)` after some writes. -/
structure RunningHMAC where
  key : Bytes
  written : Bytes := []
  deriving DecidableEq

def RunningHMAC.write (h : RunningHMAC) (b : Bytes) : RunningHMAC :=
  { h with written := h.written ++ b }

/-- `Reset` restores the key the object was made with. -/
def RunningHMAC.reset (h : RunningHMAC) : RunningHMAC := { h with written := [] }

/-- `Sum` does not change the object. -/
def RunningHMAC.sum {Key Priv : Type} (h : RunningHMAC) (c : CertCrypto Key Priv) : Bytes :=
  c.hmac h.key h.written

structure PooledHMAC where
  h : RunningHMAC
  key : Bytes
  deriving DecidableEq

/-- `hmacSHA512Pool` -/
abbrev HMACPool := List PooledHMAC

/-- What is left after `Get` took the object at `choice`. -/
def HMACPool.without (pool : HMACPool) (choice : Option Nat) : HMACPool :=
  match choice with
  | none => pool
  | some i => pool.eraseIdx i

/-- `acquireHMACSHA512`: `Get` returns nil or any object of the pool. One with
another key is dropped. -/
def acquireHMACSHA512 (pool : HMACPool) (choice : Option Nat) (key : Bytes) : PooledHMAC :=
  match choice.bind (pool[·]?) with
  | none => ⟨⟨key, []⟩, key⟩
  | some ph => if ph.key = key then { ph with h := ph.h.reset } else ⟨⟨key, []⟩, key⟩

/-- `releaseHMACSHA512` -/
def releaseHMACSHA512 (pool : HMACPool) (ph : PooledHMAC) : HMACPool :=
  { ph with h := ph.h.reset } :: pool

/-! ## The leaf -/

inductive MaterializeError where
  | nilPlan
  | invalidKey
  | keyType
  | outOfRange
  | slotTooSmall
  /-- The run-time panic of a leaf that is shorter than an HMAC. -/
  | sliceBounds
  deriving DecidableEq

/-- A plan as the struct holds it: slices by address, offsets that may be `-1`. -/
structure RawCertPlan where
  leafDER : Nat
  chainDERs : List Nat
  hmacOffset : Int
  mldsaOffset : Int
  mldsaLen : Int

section

variable {Key Priv : Type} (c : CertCrypto Key Priv)

/-- The private key to sign with. -/
def CertCrypto.signer (mldsaKey : Bytes) : Except MaterializeError Priv :=
  match c.unmarshalBinaryPrivateKey mldsaKey with
  | none => .error .invalidKey
  | some key =>
      match c.asPrivateKey key with
      | none => .error .keyType
      | some priv => .ok priv

/-- Where the HMAC goes: an offset that is out of range is moved to the end. -/
def RawCertPlan.hmacSlot (plan : RawCertPlan) (leaf : Bytes) : Int :=
  if plan.hmacOffset < 0 ∨ plan.hmacOffset + 64 > leaf.length then leaf.length - 64
  else plan.hmacOffset

def RawCertPlan.signs (plan : RawCertPlan) (mldsaKey : Bytes) : Bool :=
  mldsaKey ≠ [] && 0 ≤ plan.mldsaOffset && 0 < plan.mldsaLen

/-- The hash at the end of `MaterializeCert`, whether or not it returns an error. -/
def RunningHMAC.fed (h : RunningHMAC) (plan : RawCertPlan) (mldsaKey clientHelloOrig
    serverHelloOrig : Bytes) : RunningHMAC :=
  if plan.signs mldsaKey then ((h.write c.pub).write clientHelloOrig).write serverHelloOrig
  else h.write c.pub

/-- What `MaterializeCert` does to its copy of the leaf, with the hash it acquired. -/
def authenticateLeaf (h : RunningHMAC) (plan : RawCertPlan) (leaf mldsaKey clientHelloOrig
    serverHelloOrig : Bytes) : Except MaterializeError Bytes :=
  let off := plan.hmacSlot leaf
  if off < 0 then .error .sliceBounds
  else
    let leaf := overwrite leaf off.toNat 64 ((h.write c.pub).sum c)
    if plan.signs mldsaKey then
      match c.signer mldsaKey with
      | .error e => .error e
      | .ok priv =>
          if plan.mldsaOffset + mldsa65SigSize > leaf.length then .error .outOfRange
          else
            -- The hash goes on from the state it was summed in.
            .ok (overwrite leaf plan.mldsaOffset.toNat mldsa65SigSize
              (c.signTo priv ((h.fed c plan mldsaKey clientHelloOrig serverHelloOrig).sum c)))
    else .ok leaf

/-- `writeMLDSA`: the signature with an HMAC of its own. -/
def writeMLDSA (leaf : Bytes) (off mlen : Int) (authKey clientHelloOrig serverHelloOrig
    mldsaKey : Bytes) : Except MaterializeError Bytes :=
  if off < 0 ∨ mlen ≤ 0 ∨ off + mlen > leaf.length then .error .outOfRange
  else if mlen < mldsa65SigSize then .error .slotTooSmall
  else
    let h : RunningHMAC := ⟨authKey, []⟩
    let h := ((h.write c.pub).write clientHelloOrig).write serverHelloOrig
    match c.signer mldsaKey with
    | .error e => .error e
    | .ok priv => .ok (overwrite leaf off.toNat mldsa65SigSize (c.signTo priv (h.sum c)))

end

/-! ## The call -/

/-- The buffers and the pool, which all handshakes share. -/
structure CertHeap where
  buffers : Buffers
  pool : HMACPool := []

structure MaterializeCall where
  plan : Option RawCertPlan
  authKey : Bytes
  mldsaKey : Bytes
  clientHelloOrig : Bytes
  serverHelloOrig : Bytes
  /-- What `Get` answers. -/
  choice : Option Nat

/-- `MaterializeCert`: the addresses of the chain, or an error. -/
def CertHeap.materializeCert {Key Priv : Type} (c : CertCrypto Key Priv) (s : CertHeap)
    (call : MaterializeCall) : CertHeap × Except MaterializeError (List Nat) :=
  match call.plan with
  | none => (s, .error .nilPlan)
  | some plan =>
      if s.buffers.read plan.leafDER = [] then (s, .error .nilPlan)
      else
        let leaf := s.buffers.read plan.leafDER
        let copied := s.buffers.alloc leaf
        let ph := acquireHMACSHA512 s.pool call.choice call.authKey
        -- Deferred: it runs on every way out.
        let pool := releaseHMACSHA512 (s.pool.without call.choice) { ph with
          h := ph.h.fed c plan call.mldsaKey call.clientHelloOrig call.serverHelloOrig }
        match authenticateLeaf c ph.h plan leaf call.mldsaKey call.clientHelloOrig
            call.serverHelloOrig with
        | .error e => (⟨copied.1, pool⟩, .error e)
        | .ok leaf => (⟨copied.1.store copied.2 leaf, pool⟩, .ok (copied.2 :: plan.chainDERs))

/-- What happens to the heap: calls with any arguments, the collector dropping
pooled objects, and other code making buffers of its own. A handshake that holds an
object while others run looks to them like one that was collected and, when it is
released, like a call that found the pool empty. -/
inductive HeapEvent where
  | materialize (call : MaterializeCall)
  | collect (kept : PooledHMAC → Bool)
  | allocate (bytes : Bytes)

def heapMachine {Key Priv : Type} (c : CertCrypto Key Priv) :
    Machine CertHeap HeapEvent (Option (Except MaterializeError (List Nat))) where
  step s e :=
    match e with
    | .materialize call => some ((s.materializeCert c call).1, some (s.materializeCert c call).2)
    | .collect kept => some ({ s with pool := s.pool.filter kept }, none)
    | .allocate bytes => some ({ s with buffers := (s.buffers.alloc bytes).1 }, none)

/-! ## The pool hands out fresh hashes -/

/-- Every pooled object is keyed by the key it is filed under. -/
def HMACPool.Keyed (pool : HMACPool) : Prop := ∀ ph ∈ pool, ph.h.key = ph.key

namespace HMACPool

variable {pool : HMACPool}

theorem Keyed.without (h : pool.Keyed) (choice : Option Nat) : (pool.without choice).Keyed := by
  cases choice with
  | none => exact h
  | some i => exact fun ph hph => h ph (List.mem_of_mem_eraseIdx hph)

/-- Whatever `Get` answers, the hash that is acquired is a new one of the key. -/
theorem Keyed.acquire (h : pool.Keyed) (choice : Option Nat) (key : Bytes) :
    acquireHMACSHA512 pool choice key = ⟨⟨key, []⟩, key⟩ := by
  unfold acquireHMACSHA512
  cases hget : choice.bind (pool[·]?) with
  | none => rfl
  | some ph =>
      dsimp only
      split
      next hkey =>
        obtain ⟨i, -, hi⟩ := Option.bind_eq_some_iff.mp hget
        have hbound := h ph (List.mem_of_getElem? hi)
        rw [RunningHMAC.reset, hbound, hkey, ← hkey]
      next => rfl

theorem Keyed.release (h : pool.Keyed) {ph : PooledHMAC} (hph : ph.h.key = ph.key) :
    Keyed (releaseHMACSHA512 pool ph) := by
  intro ph' hmem
  rcases List.mem_cons.mp hmem with rfl | hmem
  · exact hph
  · exact h ph' hmem

end HMACPool

section Calls

variable {Key Priv : Type} {c : CertCrypto Key Priv} {s s' : CertHeap} {call : MaterializeCall}
  {plan : RawCertPlan}

theorem RunningHMAC.fed_key (h : RunningHMAC) (plan : RawCertPlan) (mldsaKey ch sh : Bytes) :
    (h.fed c plan mldsaKey ch sh).key = h.key := by
  unfold RunningHMAC.fed
  split <;> rfl

/-- The pool after a call, on every way out. -/
theorem pool_materializeCert (c : CertCrypto Key Priv) (s : CertHeap) (call : MaterializeCall) :
    (s.materializeCert c call).1.pool = s.pool ∨ ∃ ph : PooledHMAC,
      (s.materializeCert c call).1.pool
        = releaseHMACSHA512 (s.pool.without call.choice) ph
      ∧ ph.h.key = (acquireHMACSHA512 s.pool call.choice call.authKey).h.key
      ∧ ph.key = (acquireHMACSHA512 s.pool call.choice call.authKey).key := by
  unfold CertHeap.materializeCert
  cases call.plan with
  | none => exact Or.inl rfl
  | some plan =>
      dsimp only
      split
      · exact Or.inl rfl
      · let ph := acquireHMACSHA512 s.pool call.choice call.authKey
        refine Or.inr ⟨{ ph with
          h := ph.h.fed c plan call.mldsaKey call.clientHelloOrig call.serverHelloOrig }, ?_,
          RunningHMAC.fed_key _ plan _ _ _, rfl⟩
        cases authenticateLeaf c _ plan _ call.mldsaKey call.clientHelloOrig
          call.serverHelloOrig <;> rfl

theorem keyed_materializeCert (h : s.pool.Keyed) (c : CertCrypto Key Priv)
    (call : MaterializeCall) : (s.materializeCert c call).1.pool.Keyed := by
  rcases pool_materializeCert c s call with hp | ⟨ph, hp, hk, hkey⟩
  · rw [hp]
    exact h
  · rw [hp]
    rw [h.acquire] at hk hkey
    exact (h.without call.choice).release (hk.trans hkey.symm)

/-- Every pool that calls, the collector and other code can leave is keyed. -/
theorem keyed_of_run {buffers : Buffers} {tr} (h : (heapMachine c).Run ⟨buffers, []⟩ tr s) :
    s.pool.Keyed := by
  refine h.invariant (I := fun _ s => s.pool.Keyed) (fun ph hph => absurd hph (by simp)) ?_
  intro tr s e s' out hi hs
  cases e with
  | materialize call =>
      cases hs
      exact keyed_materializeCert hi c call
  | collect kept =>
      cases hs
      exact fun ph hph => hi ph (List.mem_of_mem_filter hph)
  | allocate bytes =>
      cases hs
      exact hi

/-! ## What a call writes -/

/-- No buffer that was there is written, whatever the call returns. -/
theorem read_materializeCert {b : Nat} (hb : b < s.buffers.length) (c : CertCrypto Key Priv)
    (call : MaterializeCall) : (s.materializeCert c call).1.buffers.read b = s.buffers.read b := by
  unfold CertHeap.materializeCert
  cases call.plan with
  | none => rfl
  | some plan =>
      dsimp only
      split
      · rfl
      · have hcopied := Buffers.read_alloc_of_lt hb (s.buffers.read plan.leafDER)
        cases authenticateLeaf c _ plan _ call.mldsaKey call.clientHelloOrig
            call.serverHelloOrig with
        | error e => exact hcopied
        | ok leaf => exact (Buffers.read_store_of_ne (Nat.ne_of_lt hb) leaf).trans hcopied

/-- A call on a keyed pool is decided by what authenticating the leaf with a NEW
hash gives. -/
theorem materializeCert_keyed (h : s.pool.Keyed) (hplan : call.plan = some plan)
    (hleaf : s.buffers.read plan.leafDER ≠ []) {out : Except MaterializeError Bytes}
    (hout : authenticateLeaf c ⟨call.authKey, []⟩ plan (s.buffers.read plan.leafDER) call.mldsaKey
      call.clientHelloOrig call.serverHelloOrig = out) :
    (s.materializeCert c call).2 = out.map (fun _ => s.buffers.length :: plan.chainDERs)
      ∧ ∀ leaf, out = .ok leaf →
        (s.materializeCert c call).1.buffers.read s.buffers.length = leaf := by
  have hnew : s.buffers.length < (s.buffers.alloc (s.buffers.read plan.leafDER)).1.length := by
    rw [Buffers.length_alloc]
    exact Nat.lt_succ_self _
  unfold CertHeap.materializeCert
  rw [hplan]
  dsimp only
  rw [if_neg hleaf, h.acquire, hout]
  cases out with
  | error e => exact ⟨rfl, fun leaf hl => by cases hl⟩
  | ok leaf =>
      refine ⟨rfl, fun leaf' hl => ?_⟩
      cases hl
      exact Buffers.read_store_self hnew leaf

/-! ## The two slots -/

/-- The slots of the HMAC and of the signature lie inside the leaf, apart. -/
structure RawCertPlan.Slots (plan : RawCertPlan) (leaf : Bytes) (off m : Nat) : Prop where
  hmac_at : plan.hmacOffset = off
  hmac_in : off + 64 ≤ leaf.length
  mldsa_at : plan.mldsaOffset = m
  mldsa_in : m + mldsa65SigSize ≤ leaf.length
  mldsa_len : 0 < plan.mldsaLen
  apart : off + 64 ≤ m ∨ m + mldsa65SigSize ≤ off

/-- The leaf with the HMAC of the certificate's key in its slot. -/
def CertCrypto.maced (c : CertCrypto Key Priv) (authKey leaf : Bytes) (off : Nat) : Bytes :=
  overwrite leaf off 64 (c.hmac authKey c.pub)

/-- What the signature is over. -/
def CertCrypto.signedMessage (c : CertCrypto Key Priv) (authKey ch sh : Bytes) : Bytes :=
  c.hmac authKey (c.pub ++ ch ++ sh)

section Leaf

variable {leaf authKey mldsaKey ch sh : Bytes} {off m : Nat} {priv : Priv}

namespace RawCertPlan.Slots

theorem hmacSlot_eq (h : plan.Slots leaf off m) : plan.hmacSlot leaf = off := by
  have hin := h.hmac_in
  rw [hmacSlot, h.hmac_at, if_neg (by omega)]

theorem maced_length (h : plan.Slots leaf off m) :
    (c.maced authKey leaf off).length = leaf.length := overwrite_length _ h.hmac_in

theorem signs_iff (h : plan.Slots leaf off m) : plan.signs mldsaKey = true ↔ mldsaKey ≠ [] := by
  have hm : (0 : Int) ≤ m := Int.natCast_nonneg m
  simp [signs, h.mldsa_at, h.mldsa_len, hm]

/-- Without a key only the HMAC is written. -/
theorem authenticate_plain (h : plan.Slots leaf off m) (hkey : mldsaKey = []) :
    authenticateLeaf c ⟨authKey, []⟩ plan leaf mldsaKey ch sh = .ok (c.maced authKey leaf off) := by
  have hoff : ¬ (off : Int) < 0 := by omega
  have hsigns : ¬ plan.signs mldsaKey = true := fun hs => h.signs_iff.mp hs hkey
  unfold authenticateLeaf
  dsimp only
  rw [h.hmacSlot_eq, if_neg hoff, if_neg hsigns, Int.toNat_natCast]
  rfl

/-- With one, the hash that was summed for the HMAC is continued and signed. -/
theorem authenticate_signed (h : plan.Slots leaf off m) (hkey : mldsaKey ≠ [])
    (hpriv : c.signer mldsaKey = .ok priv) :
    authenticateLeaf c ⟨authKey, []⟩ plan leaf mldsaKey ch sh
      = .ok (overwrite (c.maced authKey leaf off) m mldsa65SigSize
          (c.signTo priv (c.signedMessage authKey ch sh))) := by
  have hoff : ¬ (off : Int) < 0 := by omega
  have hsigns : plan.signs mldsaKey = true := h.signs_iff.mpr hkey
  have hin : ¬ (m : Int) + mldsa65SigSize > (c.maced authKey leaf off).length := by
    rw [h.maced_length]
    have := h.mldsa_in
    omega
  unfold authenticateLeaf RunningHMAC.fed
  dsimp only
  rw [h.hmacSlot_eq, if_neg hoff, if_pos hsigns, if_pos hsigns, hpriv, Int.toNat_natCast,
    h.mldsa_at, Int.toNat_natCast]
  exact if_neg hin

/-- The signature is the one `writeMLDSA` puts there, which hashes afresh. -/
theorem writeMLDSA_eq (h : plan.Slots leaf off m) (hpriv : c.signer mldsaKey = .ok priv) :
    writeMLDSA c (c.maced authKey leaf off) m mldsa65SigSize authKey ch sh mldsaKey
      = .ok (overwrite (c.maced authKey leaf off) m mldsa65SigSize
          (c.signTo priv (c.signedMessage authKey ch sh))) := by
  have hin := h.mldsa_in
  have hsize : (mldsa65SigSize : Int) = 3309 := rfl
  unfold writeMLDSA
  rw [h.maced_length, if_neg (by omega), if_neg (by omega)]
  dsimp only
  rw [hpriv, Int.toNat_natCast]
  rfl

theorem maced_outside (h : plan.Slots leaf off m) {i : Nat} (hi : i < off ∨ off + 64 ≤ i) :
    (c.maced authKey leaf off)[i]? = leaf[i]? :=
  getElem?_overwrite_of_outside h.hmac_in (c.hmac_length _ _) hi

theorem maced_slot (h : plan.Slots leaf off m) :
    ((c.maced authKey leaf off).drop off).take 64 = c.hmac authKey c.pub :=
  slot_overwrite h.hmac_in (c.hmac_length _ _)

end RawCertPlan.Slots

end Leaf

/-- `leaf'` is `leaf` with the HMAC in its slot, and nothing else touched outside of
the two slots. -/
structure Authenticated (c : CertCrypto Key Priv) (authKey leaf leaf' : Bytes) (off m : Nat) :
    Prop where
  length_eq : leaf'.length = leaf.length
  outside : ∀ i, (i < off ∨ off + 64 ≤ i) → (i < m ∨ m + mldsa65SigSize ≤ i) → leaf'[i]? = leaf[i]?
  mac : (leaf'.drop off).take 64 = c.hmac authKey c.pub

theorem RawCertPlan.Slots.authenticated_signed {leaf : Bytes} {off m : Nat}
    (h : plan.Slots leaf off m) (authKey : Bytes) {sig : Bytes}
    (hsig : sig.length = mldsa65SigSize) :
    Authenticated c authKey leaf (overwrite (c.maced authKey leaf off) m mldsa65SigSize sig)
      off m := by
  have hroom : m + mldsa65SigSize ≤ (c.maced authKey leaf off).length := by
    rw [h.maced_length]
    exact h.mldsa_in
  refine ⟨(overwrite_length _ hroom).trans h.maced_length, fun i hi him => ?_, ?_⟩
  · rw [getElem?_overwrite_of_outside hroom hsig him, h.maced_outside hi]
  · rw [slot_overwrite_of_apart hroom hsig h.apart, h.maced_slot]

end Calls

/-- **Materializing a plan**, after any history of the pool: no buffer of the plan is
written, the chain is shared, and the copy of the leaf differs from it only in the
slots, which hold the HMAC and, under a key, the signature that `writeMLDSA` makes
with an HMAC of its own. -/
theorem materializeCert_slots {Key Priv : Type} {c : CertCrypto Key Priv} {buffers : Buffers}
    {tr} {s : CertHeap} (hrun : (heapMachine c).Run ⟨buffers, []⟩ tr s) {call : MaterializeCall}
    {plan : RawCertPlan} {leaf : Bytes} {off m : Nat} (hplan : call.plan = some plan)
    (hleaf : s.buffers.read plan.leafDER = leaf) (hslots : plan.Slots leaf off m) :
    (∀ b < s.buffers.length, (s.materializeCert c call).1.buffers.read b = s.buffers.read b)
    ∧ (call.mldsaKey = [] → ∃ leaf',
        (s.materializeCert c call).2 = .ok (s.buffers.length :: plan.chainDERs)
        ∧ (s.materializeCert c call).1.buffers.read s.buffers.length = leaf'
        ∧ Authenticated c call.authKey leaf leaf' off m
        ∧ (leaf'.drop m).take mldsa65SigSize = (leaf.drop m).take mldsa65SigSize)
    ∧ (call.mldsaKey ≠ [] → ∀ priv, c.signer call.mldsaKey = .ok priv → ∃ leaf',
        (s.materializeCert c call).2 = .ok (s.buffers.length :: plan.chainDERs)
        ∧ (s.materializeCert c call).1.buffers.read s.buffers.length = leaf'
        ∧ Authenticated c call.authKey leaf leaf' off m
        ∧ (leaf'.drop m).take mldsa65SigSize = c.signTo priv
            (c.hmac call.authKey (c.pub ++ call.clientHelloOrig ++ call.serverHelloOrig))
        ∧ writeMLDSA c (c.maced call.authKey leaf off) m mldsa65SigSize call.authKey
            call.clientHelloOrig call.serverHelloOrig call.mldsaKey = .ok leaf') := by
  have hkeyed := keyed_of_run hrun
  subst hleaf
  have hne : s.buffers.read plan.leafDER ≠ [] := by
    intro hnil
    have hin := hslots.hmac_in
    rw [hnil, List.length_nil] at hin
    omega
  refine ⟨fun b hb => read_materializeCert hb c call, fun hkey => ?_, fun hkey priv hpriv => ?_⟩
  · obtain ⟨hret, hread⟩ := materializeCert_keyed hkeyed hplan hne (hslots.authenticate_plain hkey)
    refine ⟨_, hret, hread _ rfl, ⟨hslots.maced_length, fun i hi _ => hslots.maced_outside hi,
      hslots.maced_slot⟩, ?_⟩
    exact slot_overwrite_of_apart hslots.hmac_in (c.hmac_length _ _) hslots.apart.symm
  · obtain ⟨hret, hread⟩ := materializeCert_keyed hkeyed hplan hne
      (hslots.authenticate_signed hkey hpriv)
    have hsig := c.signTo_length priv
      (c.signedMessage call.authKey call.clientHelloOrig call.serverHelloOrig)
    refine ⟨_, hret, hread _ rfl, hslots.authenticated_signed call.authKey hsig, ?_,
      hslots.writeMLDSA_eq hpriv⟩
    exact slot_overwrite (by rw [hslots.maced_length]; exact hslots.mldsa_in) hsig

/-! ### Two handshakes -/

/-- An HMAC and a signature that show what they were made of. -/
def plainCertCrypto : CertCrypto Unit Unit where
  hmac key msg := (key ++ msg ++ List.replicate 64 0).take 64
  unmarshalBinaryPrivateKey _ := some ()
  asPrivateKey _ := some ()
  signTo _ msg := (msg ++ List.replicate mldsa65SigSize 0).take mldsa65SigSize
  ed25519Priv := List.replicate 64 5
  hmac_length key msg := by
    rw [List.length_take, List.length_append, List.length_replicate]
    omega
  signTo_length priv msg := by
    rw [List.length_take, List.length_append, List.length_replicate]
    omega

/-- A plan whose leaf is the signature's slot and the HMAC's. -/
def twoSlotPlan : RawCertPlan := ⟨0, [], mldsa65SigSize, 0, mldsa65SigSize⟩

def twoSlotLeaf : Bytes := List.replicate (mldsa65SigSize + 64) 7

def twoSlotCall (authKey : Bytes) (choice : Option Nat) : MaterializeCall :=
  ⟨some twoSlotPlan, authKey, [1], [2], [3], choice⟩

/-- The heap after a handshake under another key. -/
def usedHeap : CertHeap :=
  (CertHeap.materializeCert plainCertCrypto ⟨[twoSlotLeaf], []⟩ (twoSlotCall [9] none)).1

/-- The pool offers the object of the other key; the HMAC is of this one. -/
theorem materializeCert_slots_pooled :
    ∃ leaf', (usedHeap.materializeCert plainCertCrypto (twoSlotCall [8] (some 0))).2
        = .ok [usedHeap.buffers.length]
      ∧ (usedHeap.materializeCert plainCertCrypto (twoSlotCall [8] (some 0))).1.buffers.read
          usedHeap.buffers.length = leaf'
      ∧ (leaf'.drop mldsa65SigSize).take 64 = plainCertCrypto.hmac [8] plainCertCrypto.pub := by
  have hrun : ∃ tr, (heapMachine plainCertCrypto).Run ⟨[twoSlotLeaf], []⟩ tr usedHeap := by
    rw [usedHeap]
    exact ⟨_, Machine.Run.snoc (a := .materialize (twoSlotCall [9] none)) .nil rfl⟩
  obtain ⟨tr, hrun⟩ := hrun
  have hleaf : usedHeap.buffers.read 0 = twoSlotLeaf := by
    rw [usedHeap, read_materializeCert (s := ⟨[twoSlotLeaf], []⟩) Nat.zero_lt_one]
    rfl
  have hlen : twoSlotLeaf.length = mldsa65SigSize + 64 := List.length_replicate
  have hslots : twoSlotPlan.Slots twoSlotLeaf mldsa65SigSize 0 :=
    ⟨rfl, Nat.le_of_eq hlen.symm, rfl, by rw [hlen]; omega, by decide, Or.inr (by omega)⟩
  have hplan : (twoSlotCall [8] (some 0)).plan = some twoSlotPlan := rfl
  obtain ⟨leaf', hret, hread, hauth, -⟩ :=
    (materializeCert_slots hrun hplan hleaf hslots).2.2 (by decide) () rfl
  exact ⟨leaf', hret, hread, hauth.mac⟩

end Reality
