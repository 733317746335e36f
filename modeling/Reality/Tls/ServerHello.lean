import Reality.Kit.Cryptobyte
import Reality.Profile

/-!
# ServerHello

`serverHelloMsg.unmarshal` (handshake_messages.go), with every extension it
knows. The fields the code later WRITES THROUGH (random, session id, key
share data) are kept as slices of the message buffer.

Two facts about such writes carry the zero-dial path: replacing the random
and the session id by values of the same lengths, or the key share data by
data of the same length, leaves the rest of the parse as it was.
-/

namespace Reality

open Kit Kit.Slice

def x25519 : CurveID := 29

def x25519MLKEM768 : CurveID := 4588

def curveP256 : CurveID := 23

/-- `keyShare` of a ServerHello; the data aliases the message. -/
structure ServerShare where
  group : CurveID := 0
  data : Slice := ⟨0, []⟩
  deriving DecidableEq, Repr

/-- The fields set by extensions. -/
structure ServerHelloExts where
  ocspStapling : Bool := false
  ticketSupported : Bool := false
  secureRenegotiationSupported : Bool := false
  secureRenegotiation : Bytes := []
  extendedMasterSecret : Bool := false
  alpnProtocol : Bytes := []
  scts : List Bytes := []
  supportedVersion : UInt16 := 0
  serverShare : ServerShare := {}
  selectedIdentityPresent : Bool := false
  selectedIdentity : UInt16 := 0
  supportedPoints : Bytes := []
  encryptedClientHello : Bytes := []
  serverNameAck : Bool := false
  cookie : Bytes := []
  selectedGroup : CurveID := 0
  deriving DecidableEq, Repr

structure ServerHelloMsg extends ServerHelloExts where
  original : Bytes
  vers : UInt16
  random : Slice
  sessionId : Slice
  cipherSuite : UInt16
  compressionMethod : UInt8
  deriving DecidableEq, Repr

/-! ## Extensions -/

def readServerAlpn (d : Slice) : Option Bytes :=
  match exhausted d.readUint16LengthPrefixed with
  | none => none
  | some protoList => exhausted (nonEmpty protoList.readUint8LengthPrefixed)

def readServerScts (d : Slice) : Option (List Bytes) :=
  match exhausted d.readUint16LengthPrefixed with
  | none => none
  | some sctList =>
      if sctList.empty then none
      else readAll (fun s => nonEmpty s.readUint16LengthPrefixed) sctList.bytes.length sctList

/-- `key_share` of a ServerHello proper (not a HelloRetryRequest). -/
def readServerShare (d : Slice) : Option ServerShare :=
  match d.readUint16 with
  | none => none
  | some (group, s) => (exhausted s.readUint16LengthPrefixed).map fun data => ⟨group, data⟩

/-- One extension the code knows, with the value read from it. -/
inductive ServerExt where
  | statusRequest
  | sessionTicket
  | renegotiationInfo (v : Bytes)
  | extendedMasterSecret
  | alpn (v : Bytes)
  | sct (v : List Bytes)
  | supportedVersions (v : UInt16)
  | cookie (v : Bytes)
  | selectedGroup (v : CurveID)
  | keyShare (v : ServerShare)
  | preSharedKey (v : UInt16)
  | supportedPoints (v : Bytes)
  | encryptedClientHello (v : Bytes)
  | serverName
  | unknown

/-- The `switch` over the extension number. Unknown extensions are ignored
with their data; every known one has to use its data up. -/
def parseServerExt (ext : UInt16) (d : Slice) : Option ServerExt :=
  if ext = 5 then if d.empty then some .statusRequest else none
  else if ext = 35 then if d.empty then some .sessionTicket else none
  else if ext = 0xff01 then
    (exhausted d.readUint8LengthPrefixed).map fun v => .renegotiationInfo v.bytes
  else if ext = 23 then if d.empty then some .extendedMasterSecret else none
  else if ext = 16 then (readServerAlpn d).map .alpn
  else if ext = 18 then (readServerScts d).map .sct
  else if ext = 43 then (exhausted d.readUint16).map .supportedVersions
  else if ext = 44 then (exhausted (nonEmpty d.readUint16LengthPrefixed)).map .cookie
  else if ext = 51 then
    if d.bytes.length = 2 then (exhausted d.readUint16).map .selectedGroup
    else (readServerShare d).map .keyShare
  else if ext = 41 then (exhausted d.readUint16).map .preSharedKey
  else if ext = 11 then (exhausted (nonEmpty d.readUint8LengthPrefixed)).map .supportedPoints
  else if ext = 0xfe0d then some (.encryptedClientHello d.bytes)
  else if ext = 0 then if d.empty then some .serverName else none
  else some .unknown

def ServerHelloExts.set (x : ServerHelloExts) : ServerExt → ServerHelloExts
  | .statusRequest => { x with ocspStapling := true }
  | .sessionTicket => { x with ticketSupported := true }
  | .renegotiationInfo v =>
      { x with secureRenegotiation := v, secureRenegotiationSupported := true }
  | .extendedMasterSecret => { x with extendedMasterSecret := true }
  | .alpn v => { x with alpnProtocol := v }
  | .sct v => { x with scts := x.scts ++ v }
  | .supportedVersions v => { x with supportedVersion := v }
  | .cookie v => { x with cookie := v }
  | .selectedGroup v => { x with selectedGroup := v }
  | .keyShare v => { x with serverShare := v }
  | .preSharedKey v => { x with selectedIdentityPresent := true, selectedIdentity := v }
  | .supportedPoints v => { x with supportedPoints := v }
  | .encryptedClientHello v => { x with encryptedClientHello := v }
  | .serverName => { x with serverNameAck := true }
  | .unknown => x

def applyServerExt (x : ServerHelloExts) (ext : UInt16) (d : Slice) :
    Option ServerHelloExts :=
  (parseServerExt ext d).map x.set

def readServerExts (s : Slice) (x : ServerHelloExts) : Option ServerHelloExts :=
  Slice.walkTagged (fun x ext d _ => applyServerExt x ext d) s.bytes.length s [] x

/-! ## The message -/

/-- Everything after the compression method. -/
def readServerTail (s : Slice) : Option ServerHelloExts :=
  if s.empty then some {}
  else
    match exhausted s.readUint16LengthPrefixed with
    | none => none
    | some extensions => readServerExts extensions {}

/-- `serverHelloMsg.unmarshal` -/
def unmarshalServerHello (data : Bytes) : Option ServerHelloMsg := do
  let s ← (Slice.whole data).skip 4
  let (vers, s) ← s.readUint16
  let (random, s) ← s.readBytes 32
  let (sessionId, s) ← s.readUint8LengthPrefixed
  let (cipherSuite, s) ← s.readUint16
  let (compressionMethod, s) ← s.readUint8
  let exts ← readServerTail s
  some
    { toServerHelloExts := exts, original := data, vers := vers, random := random,
      sessionId := sessionId, cipherSuite := cipherSuite,
      compressionMethod := compressionMethod }

/-- The fixed part of a ServerHello with its variable parts named. -/
def serverHelloBytes (hd : Bytes) (va vb : UInt8) (random : Bytes) (n : UInt8)
    (sid : Bytes) (ca cb comp : UInt8) (tail : Bytes) : Bytes :=
  hd ++ va :: vb :: (random ++ n :: (sid ++ ca :: cb :: comp :: tail))

/-- **Inversion of the parse**: an accepted message is those parts, and its
extensions were read from the tail. -/
theorem unmarshalServerHello_eq_some {data : Bytes} {m : ServerHelloMsg}
    (h : unmarshalServerHello data = some m) :
    ∃ hd va vb random n sid ca cb comp tail,
      data = serverHelloBytes hd va vb random n sid ca cb comp tail ∧
      hd.length = 4 ∧ random.length = 32 ∧ sid.length = n.toNat ∧
      m.vers = UInt16.ofNat (be16 va vb) ∧ m.random = ⟨6, random⟩ ∧
      m.sessionId = ⟨39, sid⟩ ∧ m.cipherSuite = UInt16.ofNat (be16 ca cb) ∧
      m.compressionMethod = comp ∧ m.original = data ∧
      readServerTail ⟨42 + sid.length, tail⟩ = some m.toServerHelloExts := by
  simp only [unmarshalServerHello, Option.bind_eq_bind, Option.bind_eq_some_iff,
    Option.some.injEq, Prod.exists] at h
  obtain ⟨s₁, h₁, vers, s₂, h₂, random, s₃, h₃, sid, s₄, h₄, suite, s₅, h₅, comp, s₆, h₆,
    exts, h₇, rfl⟩ := h
  simp only [Slice.skip, Option.map_eq_some_iff, Prod.exists] at h₁
  obtain ⟨hd, s₁', h₁, rfl⟩ := h₁
  obtain ⟨e₁, l₁, -, o₁⟩ := Slice.readBytes_eq_some h₁
  obtain ⟨va, vb, e₂, rfl, o₂⟩ := Slice.readUint16_eq_some h₂
  obtain ⟨e₃, l₃, a₃, o₃⟩ := Slice.readBytes_eq_some h₃
  obtain ⟨n, e₄, l₄, a₄, o₄⟩ := Slice.readUint8LengthPrefixed_eq_some h₄
  obtain ⟨ca, cb, e₅, rfl, o₅⟩ := Slice.readUint16_eq_some h₅
  obtain ⟨e₆, o₆⟩ := Slice.readUint8_eq_some h₆
  obtain ⟨oh, hd⟩ := hd
  obtain ⟨or, random⟩ := random
  obtain ⟨os, sid⟩ := sid
  obtain ⟨ot, tail⟩ := s₆
  dsimp only [Slice.whole] at e₁ l₁ o₁ e₂ o₂ e₃ l₃ a₃ o₃ e₄ l₄ a₄ o₄ e₅ o₅ e₆ o₆
  refine ⟨hd, va, vb, random, n, sid, ca, cb, comp, tail, ?_, l₁, l₃, l₄, rfl, ?_, ?_, rfl,
    rfl, rfl, ?_⟩
  · rw [e₁, e₂, e₃, e₄, e₅, e₆, serverHelloBytes]
  · rw [Slice.mk.injEq]
    exact ⟨by omega, rfl⟩
  · rw [Slice.mk.injEq]
    exact ⟨by omega, rfl⟩
  · rw [← h₇]
    congr 2
    omega

theorem unmarshalServerHello_bytes {hd random sid : Bytes} {n : UInt8}
    (hhd : hd.length = 4) (hr : random.length = 32) (hs : sid.length = n.toNat)
    (va vb ca cb comp : UInt8) (tail : Bytes) :
    unmarshalServerHello (serverHelloBytes hd va vb random n sid ca cb comp tail)
      = (readServerTail ⟨42 + sid.length, tail⟩).map fun exts =>
          { toServerHelloExts := exts
            original := serverHelloBytes hd va vb random n sid ca cb comp tail
            vers := UInt16.ofNat (be16 va vb), random := ⟨6, random⟩
            sessionId := ⟨39, sid⟩, cipherSuite := UInt16.ofNat (be16 ca cb)
            compressionMethod := comp } := by
  have h₁ : (Slice.whole (serverHelloBytes hd va vb random n sid ca cb comp tail)).skip 4
      = some ⟨4, va :: vb :: (random ++ n :: (sid ++ ca :: cb :: comp :: tail))⟩ := by
    rw [Slice.skip, Slice.whole, serverHelloBytes, ← hhd, Slice.readBytes_append]
    simp [hhd]
  have h₃ : (⟨6, random ++ n :: (sid ++ ca :: cb :: comp :: tail)⟩ : Slice).readBytes 32
      = some (⟨6, random⟩, ⟨38, n :: (sid ++ ca :: cb :: comp :: tail)⟩) := by
    rw [← hr, Slice.readBytes_append, hr]
  have h₄ := Slice.readUint8LengthPrefixed_append 38 n sid (ca :: cb :: comp :: tail) hs
  simp only [unmarshalServerHello, Option.bind_eq_bind, h₁, Option.bind_some,
    Slice.readUint16, Nat.reduceAdd, h₃, h₄, Slice.readUint8]
  rw [show 39 + sid.length + 2 + 1 = 42 + sid.length by omega]
  cases readServerTail ⟨42 + sid.length, tail⟩ <;> rfl

/-! ## Writing through the parsed fields -/

theorem readServerShare_eq_some {d : Slice} {v : ServerShare}
    (h : readServerShare d = some v) :
    ∃ ga gb la lb, d.bytes = ga :: gb :: la :: lb :: v.data.bytes ∧
      v.data.bytes.length = be16 la lb ∧ v.data.off = d.off + 4 ∧
      v.group = UInt16.ofNat (be16 ga gb) := by
  unfold readServerShare at h
  split at h
  · cases h
  next group s hg =>
    obtain ⟨ga, gb, hd, rfl, ho⟩ := Slice.readUint16_eq_some hg
    simp only [Option.map_eq_some_iff] at h
    obtain ⟨data, hdata, rfl⟩ := h
    obtain ⟨rest, hr, hnil⟩ := exhausted_eq_some hdata
    obtain ⟨la, lb, hs, hlen, hoff, -⟩ := Slice.readUint16LengthPrefixed_eq_some hr
    refine ⟨ga, gb, la, lb, ?_, hlen, by dsimp only; omega, rfl⟩
    rw [hd, hs, hnil, List.append_nil]

theorem readServerShare_of {ga gb la lb : UInt8} {data : Bytes} (o : Nat)
    (h : data.length = be16 la lb) :
    readServerShare ⟨o, ga :: gb :: la :: lb :: data⟩
      = some ⟨UInt16.ofNat (be16 ga gb), ⟨o + 4, data⟩⟩ := by
  have h₂ := Slice.readUint16LengthPrefixed_append (o + 2) la lb data [] h
  rw [List.append_nil] at h₂
  simp [readServerShare, Slice.readUint16, h₂, exhausted, Slice.empty]

theorem parseServerExt_keyShare (d : Slice) :
    parseServerExt 51 d
      = if d.bytes.length = 2 then (exhausted d.readUint16).map .selectedGroup
        else (readServerShare d).map .keyShare := rfl

theorem ite_ne_of {α : Type} {c : Prop} [Decidable c] {a b z : α} (ha : c → a ≠ z)
    (hb : ¬ c → b ≠ z) : (if c then a else b) ≠ z := by
  by_cases h : c
  · rw [if_pos h]
    exact ha h
  · rw [if_neg h]
    exact hb h

theorem map_ne_some_of {α β : Type} {o : Option α} {f : α → β} {z : β}
    (hf : ∀ a, f a ≠ z) : o.map f ≠ some z := by
  intro h
  obtain ⟨a, -, ha⟩ := Option.map_eq_some_iff.mp h
  exact hf a ha

/-- Only extension 51 carries a key share. -/
theorem parseServerExt_ne_keyShare {ext : UInt16} (h : ext ≠ 51) {d : Slice}
    {v : ServerShare} : parseServerExt ext d ≠ some (.keyShare v) := by
  unfold parseServerExt
  -- Down the chain: every arm but the one for 51 builds another constructor.
  repeat' first
    | refine ite_ne_of (fun _ => ?_) (fun _ => ?_)
    | exact absurd ‹ext = 51› h
    | exact map_ne_some_of (fun _ => nofun)
    | exact nofun

/-- Every other extension ignores the key share read so far. -/
theorem ServerHelloExts.set_setShare {e : ServerExt} (h : ∀ v, e ≠ .keyShare v)
    (x : ServerHelloExts) (v : ServerShare) :
    ({ x with serverShare := v } : ServerHelloExts).set e
      = { x.set e with serverShare := v } := by
  cases e with
  | keyShare v' => exact absurd rfl (h v')
  | _ => rfl

theorem applyServerExt_setShare {ext : UInt16} (h : ext ≠ 51) {x y : ServerHelloExts}
    {d : Slice} (hy : applyServerExt x ext d = some y) (v : ServerShare) :
    y.serverShare = x.serverShare ∧
      applyServerExt { x with serverShare := v } ext d
        = some { y with serverShare := v } := by
  simp only [applyServerExt, Option.map_eq_some_iff] at hy
  obtain ⟨e, he, rfl⟩ := hy
  have hne : ∀ v, e ≠ .keyShare v := by
    rintro v rfl
    exact parseServerExt_ne_keyShare h he
  constructor
  · have hset := ServerHelloExts.set_setShare hne x x.serverShare
    rw [show ({ x with serverShare := x.serverShare } : ServerHelloExts) = x from rfl] at hset
    rw [hset]
  · rw [applyServerExt, he, Option.map_some, ServerHelloExts.set_setShare hne]

/-- The walk used by `readServerExts`, at any fuel. -/
def walkServerExts : Nat → Slice → List UInt16 → ServerHelloExts → Option ServerHelloExts :=
  Slice.walkTagged fun x ext d _ => applyServerExt x ext d

/-- Once the key share has been read nothing looks at it again. -/
theorem walkServerExts_setShare {n : Nat} {s : Slice} {seen : List UInt16}
    {x y : ServerHelloExts} (h51 : (51 : UInt16) ∈ seen) (v : ServerShare)
    (h : walkServerExts n s seen x = some y) :
    y.serverShare = x.serverShare ∧
      walkServerExts n s seen { x with serverShare := v }
        = some { y with serverShare := v } := by
  induction n generalizing s seen x with
  | zero =>
      unfold walkServerExts Slice.walkTagged at h ⊢
      split at h
      next he =>
        cases h
        exact ⟨rfl, by rw [if_pos he]⟩
      · cases h
  | succ n ih =>
      rcases Slice.walkTagged_succ_eq_some h with
        ⟨hnil, rfl⟩ | ⟨a, b, c, e, d, rest, x', hs, hd, hseen, hx, hrest⟩
      · refine ⟨rfl, ?_⟩
        unfold walkServerExts Slice.walkTagged
        rw [if_pos (by simp [Slice.empty, hnil])]
      · have hne : UInt16.ofNat (be16 a b) ≠ 51 := fun he => hseen (he ▸ h51)
        obtain ⟨hshare, hwalk⟩ := ih (List.mem_cons_of_mem _ h51) hrest
        obtain ⟨hsame, hx'⟩ := applyServerExt_setShare hne hx v
        refine ⟨hshare.trans hsame, ?_⟩
        obtain ⟨o, bytes⟩ := s
        dsimp only at hs hx' hwalk
        subst hs
        rw [← hwalk]
        exact Slice.walkTagged_succ_of hd hseen hx'

/-- **Writing key share data**: an extension walk either never meets a share
or meets it at one place, and other data of the same length there only
changes that data. -/
theorem walkServerExts_share {n o : Nat} {bytes : Bytes} {seen : List UInt16}
    {x y : ServerHelloExts} (h : walkServerExts n ⟨o, bytes⟩ seen x = some y) :
    y.serverShare = x.serverShare ∨
    ∃ before after, bytes = before ++ y.serverShare.data.bytes ++ after ∧
      y.serverShare.data.off = o + before.length ∧
      ∀ data : Bytes, data.length = y.serverShare.data.bytes.length →
        walkServerExts n ⟨o, before ++ data ++ after⟩ seen x
          = some { y with serverShare :=
              ⟨y.serverShare.group, ⟨y.serverShare.data.off, data⟩⟩ } := by
  induction n generalizing o bytes seen x with
  | zero =>
      unfold walkServerExts Slice.walkTagged at h
      split at h
      · cases h
        exact .inl rfl
      · cases h
  | succ n ih =>
      rcases Slice.walkTagged_succ_eq_some h with
        ⟨hnil, rfl⟩ | ⟨a, b, c, e, d, rest, x', hs, hd, hseen, hx, hrest⟩
      · exact .inl rfl
      · dsimp only at hs hx hrest
        by_cases h51 : UInt16.ofNat (be16 a b) = 51
        · -- This field is the key share; the rest of the walk keeps it.
          have hshape : applyServerExt x 51 ⟨o + 4, d⟩ = some x' := by rw [← h51]; exact hx
          by_cases hlen : d.length = 2
          · left
            have hkeep := (walkServerExts_setShare (by rw [h51]; simp) x.serverShare hrest).1
            rw [hkeep]
            rw [applyServerExt, parseServerExt_keyShare, if_pos hlen, Option.map_map,
              Option.map_eq_some_iff] at hshape
            obtain ⟨v, -, rfl⟩ := hshape
            rfl
          · right
            rw [applyServerExt, parseServerExt_keyShare, if_neg hlen, Option.map_map,
              Option.map_eq_some_iff] at hshape
            obtain ⟨v, hv, rfl⟩ := hshape
            obtain ⟨ga, gb, la, lb, hdb, hvl, hvo, hvg⟩ := readServerShare_eq_some hv
            dsimp only at hdb hvo
            have hkeep : y.serverShare = v :=
              (walkServerExts_setShare (by rw [h51]; simp) v hrest).1
            refine ⟨[a, b, c, e, ga, gb, la, lb], rest, ?_, ?_, ?_⟩
            · rw [hs, hdb, hkeep]
              simp
            · rw [hkeep, hvo]
              simp
            · intro data hdata
              rw [hkeep] at hdata ⊢
              have hdl : (ga :: gb :: la :: lb :: data).length = d.length := by
                rw [hdb]
                simp [hdata]
              have hnew : applyServerExt x (UInt16.ofNat (be16 a b))
                  ⟨o + 4, ga :: gb :: la :: lb :: data⟩
                  = some { x with serverShare := ⟨v.group, ⟨v.data.off, data⟩⟩ } := by
                have hl2 : ¬ (ga :: gb :: la :: lb :: data).length = 2 := by
                  rw [hdl]; exact hlen
                rw [h51, hvg, hvo, applyServerExt, parseServerExt_keyShare, if_neg hl2,
                  readServerShare_of (o + 4) (by rw [hdata, hvl])]
                rfl
              have hwalk := (walkServerExts_setShare (by rw [h51]; simp)
                ⟨v.group, ⟨v.data.off, data⟩⟩ hrest).2
              rw [← hwalk, ← hdl]
              exact Slice.walkTagged_succ_of (hdl.trans hd) hseen hnew
        · rcases ih hrest with hkeep | ⟨before, after, hb, ho, hw⟩
          · exact .inl (hkeep.trans (applyServerExt_setShare h51 hx {}).1)
          · right
            refine ⟨a :: b :: c :: e :: (d ++ before), after, ?_, ?_, ?_⟩
            · rw [hs, hb]
              simp
            · rw [ho]
              simp only [List.length_cons, List.length_append]
              omega
            · intro data hdata
              rw [← hw data hdata]
              have happ : a :: b :: c :: e :: (d ++ before) ++ data ++ after
                  = a :: b :: c :: e :: (d ++ (before ++ data ++ after)) := by simp
              rw [happ]
              refine Slice.walkTagged_succ_of hd hseen ?_
              exact hx

theorem readServerTail_share {o : Nat} {tail : Bytes} {y : ServerHelloExts}
    (h : readServerTail ⟨o, tail⟩ = some y) :
    y.serverShare = {} ∨
    ∃ before after, tail = before ++ y.serverShare.data.bytes ++ after ∧
      y.serverShare.data.off = o + before.length ∧
      ∀ data : Bytes, data.length = y.serverShare.data.bytes.length →
        readServerTail ⟨o, before ++ data ++ after⟩
          = some { y with serverShare :=
              ⟨y.serverShare.group, ⟨y.serverShare.data.off, data⟩⟩ } := by
  unfold readServerTail at h
  split at h
  · cases h
    exact .inl rfl
  · split at h
    · cases h
    next exts hexts =>
      obtain ⟨rest, hr, hnil⟩ := exhausted_eq_some hexts
      obtain ⟨la, lb, hb, hlen, hoff, -⟩ := Slice.readUint16LengthPrefixed_eq_some hr
      obtain ⟨oe, ext⟩ := exts
      dsimp only at hb hlen hoff
      subst hoff
      rw [hnil, List.append_nil] at hb
      rcases walkServerExts_share h with hkeep | ⟨before, after, hbytes, ho, hw⟩
      · exact .inl hkeep
      · right
        refine ⟨la :: lb :: before, after, ?_, ?_, ?_⟩
        · rw [hb, hbytes]
          simp
        · rw [ho]
          simp only [List.length_cons]
          omega
        · intro data hdata
          have hsame : (before ++ data ++ after).length = ext.length := by
            rw [hbytes]
            simp [hdata]
          have hread := Slice.readUint16LengthPrefixed_append o la lb
            (before ++ data ++ after) [] (hsame.trans hlen)
          rw [List.append_nil] at hread
          have happ : la :: lb :: before ++ data ++ after
              = la :: lb :: (before ++ data ++ after) := by simp
          rw [happ, readServerTail, if_neg (by simp [Slice.empty]), hread]
          simp only [exhausted, Slice.empty, List.isEmpty_nil, if_true, readServerExts]
          rw [hsame]
          exact hw data hdata

/-- What of a ServerHello decides the rest of the handshake. -/
structure SameSelection (m m' : ServerHelloMsg) : Prop where
  vers : m'.vers = m.vers
  cipherSuite : m'.cipherSuite = m.cipherSuite
  supportedVersion : m'.supportedVersion = m.supportedVersion
  group : m'.serverShare.group = m.serverShare.group
  shareOff : m'.serverShare.data.off = m.serverShare.data.off
  shareLen : m'.serverShare.data.bytes.length = m.serverShare.data.bytes.length
  sessionId : m'.sessionId.off = m.sessionId.off

theorem SameSelection.trans {m₁ m₂ m₃ : ServerHelloMsg} (h : SameSelection m₁ m₂)
    (h' : SameSelection m₂ m₃) : SameSelection m₁ m₃ :=
  ⟨h'.vers.trans h.vers, h'.cipherSuite.trans h.cipherSuite,
    h'.supportedVersion.trans h.supportedVersion, h'.group.trans h.group,
    h'.shareOff.trans h.shareOff, h'.shareLen.trans h.shareLen,
    h'.sessionId.trans h.sessionId⟩

/-- `copy(hello.serverShare.data, src)`, seen from the message buffer. -/
def ServerHelloMsg.writeShare (m : ServerHelloMsg) (src : Bytes) : Bytes :=
  overwrite m.original m.serverShare.data.off m.serverShare.data.bytes.length src

/-- Overwriting the key share keeps the message a ServerHello with the same
selection and the same length. -/
theorem unmarshalServerHello_writeShare {data : Bytes} {m : ServerHelloMsg}
    (h : unmarshalServerHello data = some m) (src : Bytes) :
    (m.writeShare src).length = data.length ∧
      ∃ m', unmarshalServerHello (m.writeShare src) = some m' ∧ SameSelection m m' := by
  obtain ⟨hd, va, vb, random, n, sid, ca, cb, comp, tail, rfl, hhd, hr, hs, hv, hrand, hsid,
    hsuite, -, horig, htail⟩ := unmarshalServerHello_eq_some h
  rw [ServerHelloMsg.writeShare, horig]
  rcases readServerTail_share htail with hnone | ⟨before, after, hbytes, hoff, hw⟩
  · rw [hnone, List.length_nil, overwrite_zero]
    exact ⟨rfl, m, h, ⟨rfl, rfl, rfl, rfl, rfl, rfl, rfl⟩⟩
  · generalize hd' : m.serverShare.data.bytes = share at *
    have hnew : (overwrite share 0 share.length src).length = share.length :=
      overwrite_length src (by omega)
    -- The share sits behind the fixed part and the extensions before it.
    have hsplit : ∀ z : Bytes,
        serverHelloBytes hd va vb random n sid ca cb comp (before ++ z ++ after)
          = (hd ++ va :: vb :: (random ++ n :: (sid ++ ca :: cb :: comp :: before)))
              ++ z ++ after := by
      intro z
      simp [serverHelloBytes]
    have hpos : m.serverShare.data.off
        = (hd ++ va :: vb :: (random ++ n :: (sid ++ ca :: cb :: comp :: before))).length := by
      rw [hoff]
      simp only [List.length_append, List.length_cons, hhd, hr]
      omega
    rw [hbytes, hsplit, hpos, overwrite_append, ← hsplit]
    refine ⟨?_, ?_⟩
    · rw [hsplit]
      simp [hnew]
    · rw [unmarshalServerHello_bytes hhd hr hs, hw _ hnew]
      refine ⟨_, rfl, hv.symm, hsuite.symm, rfl, rfl, rfl, ?_, ?_⟩
      · simp only [hnew, hd']
      · rw [hsid]

theorem overwrite_random {hd r random : Bytes} (hhd : hd.length = 4) (hr : r.length = 32)
    (hrandom : random.length = 32) (va vb n ca cb comp : UInt8) (sid tail : Bytes) :
    overwrite (serverHelloBytes hd va vb r n sid ca cb comp tail) 6 32 random
      = serverHelloBytes hd va vb random n sid ca cb comp tail := by
  have hsplit : ∀ z : Bytes, serverHelloBytes hd va vb z n sid ca cb comp tail
      = (hd ++ [va, vb]) ++ z ++ (n :: (sid ++ ca :: cb :: comp :: tail)) := by
    intro z
    simp [serverHelloBytes]
  have hpos : (hd ++ [va, vb]).length = 6 := by simp [hhd]
  rw [hsplit, hsplit, ← hpos, ← hr, overwrite_append, overwrite_full (hrandom.trans hr.symm)]

theorem overwrite_sessionId {hd r sid sid' : Bytes} (hhd : hd.length = 4)
    (hr : r.length = 32) (hs : sid'.length = sid.length) (va vb n ca cb comp : UInt8)
    (tail : Bytes) :
    overwrite (serverHelloBytes hd va vb r n sid ca cb comp tail) 39 sid.length sid'
      = serverHelloBytes hd va vb r n sid' ca cb comp tail := by
  have hsplit : ∀ z : Bytes, serverHelloBytes hd va vb r n z ca cb comp tail
      = (hd ++ va :: vb :: (r ++ [n])) ++ z ++ (ca :: cb :: comp :: tail) := by
    intro z
    simp [serverHelloBytes]
  have hpos : (hd ++ va :: vb :: (r ++ [n])).length = 39 := by simp [hhd, hr]
  rw [hsplit, hsplit, ← hpos, overwrite_append, overwrite_full hs]

/-- A fresh random keeps the message a ServerHello with the same selection. -/
theorem unmarshalServerHello_random {data : Bytes} {m : ServerHelloMsg}
    (h : unmarshalServerHello data = some m) {random : Bytes} (hr : random.length = 32) :
    (overwrite data 6 32 random).length = data.length ∧
      ∃ m', unmarshalServerHello (overwrite data 6 32 random) = some m' ∧
        SameSelection m m' ∧ m'.sessionId = m.sessionId := by
  obtain ⟨hd, va, vb, r, n, sid, ca, cb, comp, tail, rfl, hhd, hr0, hs, hv, -, hsid,
    hsuite, -, -, htail⟩ := unmarshalServerHello_eq_some h
  rw [overwrite_random hhd hr0 hr]
  refine ⟨by simp [serverHelloBytes, hr, hr0], ?_⟩
  rw [unmarshalServerHello_bytes hhd hr hs, htail]
  refine ⟨_, rfl, ⟨hv.symm, hsuite.symm, rfl, rfl, rfl, rfl, ?_⟩, hsid.symm⟩
  rw [hsid]

/-- So does a session id of the same length. -/
theorem unmarshalServerHello_sessionId {data : Bytes} {m : ServerHelloMsg}
    (h : unmarshalServerHello data = some m) {sid' : Bytes}
    (hs : sid'.length = m.sessionId.bytes.length) :
    (overwrite data 39 m.sessionId.bytes.length sid').length = data.length ∧
      ∃ m', unmarshalServerHello (overwrite data 39 m.sessionId.bytes.length sid') = some m' ∧
        SameSelection m m' := by
  obtain ⟨hd, va, vb, r, n, sid, ca, cb, comp, tail, rfl, hhd, hr0, hn, hv, -, hsid,
    hsuite, -, -, htail⟩ := unmarshalServerHello_eq_some h
  rw [hsid] at hs ⊢
  rw [overwrite_sessionId hhd hr0 hs]
  refine ⟨by simp [serverHelloBytes, hs], ?_⟩
  rw [unmarshalServerHello_bytes hhd hr0 (hs.trans hn), hs, htail]
  refine ⟨_, rfl, ⟨hv.symm, hsuite.symm, rfl, rfl, rfl, rfl, ?_⟩⟩
  rw [hsid]

/-- Where the key share stands: inside the message and behind its fixed part, or
nowhere. -/
theorem unmarshalServerHello_share {data : Bytes} {m : ServerHelloMsg}
    (h : unmarshalServerHello data = some m) :
    m.serverShare.data.off + m.serverShare.data.bytes.length ≤ data.length ∧
      (m.serverShare.data.bytes = [] ∨
        42 + m.sessionId.bytes.length ≤ m.serverShare.data.off) := by
  obtain ⟨hd, va, vb, random, n, sid, ca, cb, comp, tail, rfl, hhd, hr, hs, -, -, hsid, -, -, -,
    htail⟩ := unmarshalServerHello_eq_some h
  rcases readServerTail_share htail with hnone | ⟨before, after, hbytes, hoff, -⟩
  · rw [hnone]
    exact ⟨Nat.zero_le _, .inl rfl⟩
  · have hlen : tail.length = before.length + m.serverShare.data.bytes.length + after.length := by
      rw [hbytes]
      simp only [List.length_append]
    rw [hoff, hsid]
    refine ⟨?_, .inr (Nat.le_add_right _ _)⟩
    simp only [serverHelloBytes, List.length_append, List.length_cons, hhd, hr]
    omega

end Reality
