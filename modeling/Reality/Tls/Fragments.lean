import Reality.Tls.Input

/-!
# A handshake message in several records

What `readHandshake` (conn.go) makes of a message that arrives in any number of
records: it is put together again, up to `maxHandshake` bytes, however the
records cut it and the reads cut the records. One record around the whole
message is the case the mirror and the replay are about.
-/

namespace Reality

open Kit

/-! ## One record -/

/-- A fill that `taken` satisfies stays within `taken`. -/
theorem readFromUntil_within {n : Nat} {raw : Bytes} {taken : List Bytes} (rest : List Bytes)
    (h : n ≤ (raw ++ taken.flatten).length) :
    ∃ t₁ t₂, taken = t₁ ++ t₂ ∧ n ≤ (raw ++ t₁.flatten).length ∧
      readFromUntil n raw (taken ++ rest) = ((raw ++ t₁.flatten, t₂ ++ rest), true) := by
  induction taken generalizing raw with
  | nil =>
      refine ⟨[], [], rfl, h, ?_⟩
      rw [List.flatten_nil, List.append_nil] at h
      cases rest with
      | nil => simp [readFromUntil, h]
      | cons c rest => simp [readFromUntil, h]
  | cons c taken ih =>
      rw [List.cons_append, readFromUntil]
      split
      next henough => exact ⟨[], c :: taken, rfl, by simpa using henough, by simp⟩
      · rw [List.flatten_cons, ← List.append_assoc] at h
        obtain ⟨t₁, t₂, rfl, hle, hr⟩ := ih h
        refine ⟨c :: t₁, t₂, rfl, ?_, ?_⟩
        · rw [List.flatten_cons, ← List.append_assoc]
          exact hle
        · rw [hr, List.flatten_cons, List.append_assoc]

theorem Input.fill_within (n : Nat) (raw hand : Bytes) {taken : List Bytes}
    (rest : List Bytes) (h : n ≤ (raw ++ taken.flatten).length) :
    ∃ t₁ t₂, taken = t₁ ++ t₂ ∧ n ≤ (raw ++ t₁.flatten).length ∧
      (Input.mk raw hand (taken ++ rest)).fill n
        = (Input.mk (raw ++ t₁.flatten) hand (t₂ ++ rest), true) := by
  obtain ⟨t₁, t₂, ht, hle, hr⟩ := readFromUntil_within rest h
  refine ⟨t₁, t₂, ht, hle, ?_⟩
  show (Input.mk (readFromUntil n raw (taken ++ rest)).1.1 hand
    (readFromUntil n raw (taken ++ rest)).1.2, (readFromUntil n raw (taken ++ rest)).2) = _
  rw [hr]

theorem headerError_handshake {raw : Bytes} (htyp : raw.getD 0 0 = recordTypeHandshake)
    (hvers : be16At raw 1 = versionTLS10.toNat) (hlen : be16At raw 3 ≤ maxCiphertext) :
    headerError raw = none := by
  unfold headerError
  dsimp only
  rw [htyp, hvers, if_neg (by decide), if_neg (by decide), if_neg (by omega)]

theorem wrapHandshakeRecord_eq (msg : Bytes) : wrapHandshakeRecord msg versionTLS10
    = recordHeader recordTypeHandshake versionTLS10 msg.length ++ msg := rfl

/-- The header of a wrapped message is there with the first five bytes, whatever else
is. -/
theorem header_wrap {raw more msg : Bytes} (hraw : 5 ≤ raw.length)
    (hfits : msg.length ≤ maxPlaintext)
    (hbytes : raw ++ more = wrapHandshakeRecord msg versionTLS10) :
    raw.getD 0 0 = recordTypeHandshake ∧ headerError raw = none ∧
      recordLenAt raw = 5 + msg.length := by
  have hmax : msg.length ≤ 16384 := hfits
  have hhead : ∀ i < 5, raw.getD i 0
      = (recordHeader recordTypeHandshake versionTLS10 msg.length).getD i 0 := by
    intro i hi
    have hget := getD_take_append more hraw hi
    rw [hbytes, wrapHandshakeRecord_eq, getD_take_append msg (by exact Nat.le_refl 5) hi] at hget
    exact hget.symm
  have hlen : be16At raw 3 = msg.length := by
    rw [be16At, hhead 3 (by omega), hhead 4 (by omega)]
    exact be16At_recordHeader recordTypeHandshake versionTLS10 (by omega)
  refine ⟨hhead 0 (by omega), headerError_handshake (hhead 0 (by omega)) ?_ ?_, ?_⟩
  · rw [be16At, hhead 1 (by omega), hhead 2 (by omega)]
    show be16 (versionTLS10 >>> 8).toUInt8 versionTLS10.toUInt8 = versionTLS10.toNat
    decide
  · rw [hlen, maxCiphertext]
    omega
  · rw [recordLenAt, hlen, recordHeaderLen]

/-- The record around a message that fits it, as its reads deliver it. -/
theorem takeRecord_wrap {taken : List Bytes} {msg : Bytes} (hand : Bytes) (rest : List Bytes)
    (hfits : msg.length ≤ maxPlaintext)
    (hbytes : taken.flatten = wrapHandshakeRecord msg versionTLS10) :
    ∃ t, t.flatten = [] ∧ (Input.mk [] hand (taken ++ rest)).takeRecord
      = (Input.mk [] hand (t ++ rest), .ok (recordTypeHandshake, msg)) := by
  have htotal : taken.flatten.length = 5 + msg.length := by
    rw [hbytes, wrapHandshakeRecord_length, recordHeaderLen]
  -- The header comes with a first fill, and the rest with a second.
  obtain ⟨t₁, t₂, rfl, hfive, hfill⟩ := Input.fill_within recordHeaderLen [] hand rest
    (by rw [List.nil_append, htotal, recordHeaderLen]; omega)
  rw [List.nil_append] at hfill hfive
  rw [List.flatten_append] at hbytes htotal
  obtain ⟨htyp, herr, hreclen⟩ := header_wrap hfive hfits hbytes
  obtain ⟨u₁, u₂, rfl, hall, hfill₂⟩ := Input.fill_within (5 + msg.length) t₁.flatten hand rest
    (Nat.le_of_eq htotal.symm)
  rw [List.flatten_append, ← List.append_assoc] at hbytes htotal
  have hnil : u₂.flatten = [] := by
    rw [List.length_append] at htotal
    exact List.eq_nil_of_length_eq_zero (by omega)
  rw [hnil, List.append_nil] at hbytes
  refine ⟨u₂, hnil, ?_⟩
  have hlen : (wrapHandshakeRecord msg versionTLS10).length ≤ 5 + msg.length :=
    Nat.le_of_eq (wrapHandshakeRecord_length msg versionTLS10)
  have htake : ((wrapHandshakeRecord msg versionTLS10).take (5 + msg.length)).drop recordHeaderLen
      = msg := by
    rw [List.take_of_length_le hlen]
    rfl
  have hdrop : (wrapHandshakeRecord msg versionTLS10).drop (5 + msg.length) = [] :=
    List.drop_eq_nil_of_le hlen
  unfold Input.takeRecord
  rw [hfill]
  dsimp only
  rw [herr]
  dsimp only
  rw [hreclen, hfill₂]
  dsimp only
  rw [hbytes, htake, hdrop, if_neg (by decide), if_neg (by decide), if_neg (Nat.not_lt.mpr hfits),
    htyp]

/-- `readRecord` adds the fragment to what is there. -/
theorem readRecord_wrap {taken : List Bytes} {fragment : Bytes} (hand : Bytes) (rest : List Bytes)
    (tries : Nat) (hne : fragment ≠ []) (hfits : fragment.length ≤ maxPlaintext)
    (hbytes : taken.flatten = wrapHandshakeRecord fragment versionTLS10) :
    ∃ t, t.flatten = [] ∧ (Input.mk [] hand (taken ++ rest)).readRecord tries
      = (Input.mk [] (hand ++ fragment) (t ++ rest), none) := by
  obtain ⟨t, ht, hrec⟩ := takeRecord_wrap hand rest hfits hbytes
  have haction : recordAction recordTypeHandshake fragment = .handshake := by
    rw [recordAction, if_neg (by decide), if_neg hne]
  refine ⟨t, ht, ?_⟩
  rw [Input.readRecord, hrec]
  dsimp only
  rw [haction]

/-! ## Several records -/

/-- The reads deliver one record around each fragment. -/
def Delivered (reads : List (List Bytes)) (fragments : List Bytes) : Prop :=
  List.Forall₂ (fun taken fragment => fragment ≠ [] ∧ fragment.length ≤ maxPlaintext ∧
    taken.flatten = wrapHandshakeRecord fragment versionTLS10) reads fragments

/-- `readHandshakeBytes` takes records until there is enough; each brings something,
so the fuel lasts. -/
theorem Delivered.readHandshakeBytes {reads : List (List Bytes)} {fragments : List Bytes}
    (h : Delivered reads fragments) (rest : List Bytes) (n fuel : Nat) (hand : Bytes)
    {t : List Bytes} (ht : t.flatten = []) (hn : n ≤ (hand ++ fragments.flatten).length)
    (hfuel : n ≤ hand.length + fuel) :
    ∃ used left reads' t', fragments = used ++ left ∧ Delivered reads' left ∧ t'.flatten = [] ∧
      n ≤ (hand ++ used.flatten).length ∧
      (Input.mk [] hand (t ++ reads.flatten ++ rest)).readHandshakeBytes n fuel
        = (Input.mk [] (hand ++ used.flatten) (t' ++ reads'.flatten ++ rest), none) := by
  induction h generalizing n fuel hand t with
  | nil =>
      have hlen : n ≤ hand.length := by simpa using hn
      refine ⟨[], [], [], t, rfl, .nil, ht, by simpa using hlen, ?_⟩
      cases fuel with
      | zero => simp [Input.readHandshakeBytes]
      | succ fuel => simp [Input.readHandshakeBytes, hlen]
  | @cons taken fragment reads fragments hrecord hrest ih =>
      obtain ⟨hne, hfits, hbytes⟩ := hrecord
      by_cases hlen : n ≤ hand.length
      · refine ⟨[], fragment :: fragments, taken :: reads, t, rfl,
          .cons ⟨hne, hfits, hbytes⟩ hrest, ht, by simpa using hlen, ?_⟩
        cases fuel with
        | zero => simp [Input.readHandshakeBytes]
        | succ fuel => simp [Input.readHandshakeBytes, hlen]
      · obtain ⟨fuel, rfl⟩ : ∃ fuel', fuel = fuel' + 1 := ⟨fuel - 1, by omega⟩
        have hbytes' : (t ++ taken).flatten = wrapHandshakeRecord fragment versionTLS10 := by
          rw [List.flatten_append, ht, List.nil_append, hbytes]
        obtain ⟨t₁, ht₁, hread⟩ := readRecord_wrap hand (reads.flatten ++ rest) maxUselessRecords
          hne hfits hbytes'
        have hpos : 0 < fragment.length := List.length_pos_iff.mpr hne
        obtain ⟨used, left, reads', t', rfl, hleft, ht', hn', heq⟩ :=
          ih n fuel (hand ++ fragment) ht₁ (by simpa [List.append_assoc] using hn)
            (by rw [List.length_append]; omega)
        refine ⟨fragment :: used, left, reads', t', rfl, hleft, ht', ?_, ?_⟩
        · simpa [List.append_assoc] using hn'
        · have hstream : t ++ (taken :: reads).flatten ++ rest
              = t ++ taken ++ (reads.flatten ++ rest) := by simp
          rw [Input.readHandshakeBytes, if_neg hlen, hstream, hread]
          dsimp only
          rw [List.append_assoc t₁] at heq
          rw [heq]
          simp

/-- Fragments that are not empty are all taken once there is nothing left of them. -/
theorem Delivered.eq_nil {reads : List (List Bytes)} {fragments : List Bytes}
    (h : Delivered reads fragments) (hnil : fragments.flatten = []) : reads = [] := by
  cases h with
  | nil => rfl
  | cons hrecord _ =>
      rw [List.flatten_cons] at hnil
      exact absurd (List.append_eq_nil_iff.mp hnil).1 hrecord.1

/-- **A message in any number of records is read as it is**, and nothing behind it. -/
theorem Delivered.readHandshake {reads : List (List Bytes)} {fragments : List Bytes}
    (h : Delivered reads fragments) (rest : List Bytes)
    (hwhole : 4 + handshakeLenAt fragments.flatten = fragments.flatten.length)
    (hmax : handshakeLenAt fragments.flatten ≤ maxHandshake) :
    (Input.mk [] [] (reads.flatten ++ rest)).readHandshake.2 = .ok fragments.flatten ∧
      (Input.mk [] [] (reads.flatten ++ rest)).readHandshake.1.rest.flatten = rest.flatten := by
  obtain ⟨used, left, reads₁, t₁, rfl, hleft, ht₁, hfour, hhead⟩ :=
    h.readHandshakeBytes rest 4 4 [] (t := []) rfl (by rw [List.nil_append]; omega) (by simp)
  rw [List.nil_append] at hfour hhead
  rw [List.nil_append] at hhead
  -- The length is known from the first four bytes.
  have hlen : handshakeLenAt (used ++ left).flatten = handshakeLenAt used.flatten :=
    handshakeLenAt_of_le (by rw [List.flatten_append]; exact List.prefix_append _ _) hfour
  rw [hlen] at hwhole hmax
  have hall : (used ++ left).flatten = used.flatten ++ left.flatten := List.flatten_append
  obtain ⟨used', left', reads₂, t₂, rfl, hleft', ht₂, henough, hbody⟩ :=
    hleft.readHandshakeBytes rest (4 + handshakeLenAt used.flatten)
      (4 + handshakeLenAt used.flatten) used.flatten ht₁ (by rw [← hall]; omega) (by omega)
  have hnone : left'.flatten = [] := by
    refine List.eq_nil_of_length_eq_zero ?_
    rw [hall, List.flatten_append, ← List.append_assoc, List.length_append] at hwhole
    omega
  have hmsg : used.flatten ++ used'.flatten = (used ++ (used' ++ left')).flatten := by
    rw [List.flatten_append, List.flatten_append, hnone, List.append_nil]
  rw [Input.readHandshake, hhead]
  dsimp only
  rw [if_neg (by omega), hbody]
  dsimp only
  rw [hwhole, hmsg, List.take_length, hleft'.eq_nil hnone, List.flatten_nil, List.append_nil]
  refine ⟨rfl, ?_⟩
  rw [List.flatten_append, ht₂, List.nil_append]

/-- **A message in one record.** -/
theorem readHandshake_wrap {taken : List Bytes} {msg : Bytes} (rest : List Bytes)
    (hone : OneRecord msg) (hbytes : taken.flatten = wrapHandshakeRecord msg versionTLS10) :
    (Input.mk [] [] (taken ++ rest)).readHandshake.2 = .ok msg ∧
      (Input.mk [] [] (taken ++ rest)).readHandshake.1.rest.flatten = rest.flatten := by
  have hwhole := hone.whole
  have hfits : msg.length ≤ 16384 := hone.fits
  have hne : msg ≠ [] := by
    rintro rfl
    rw [List.length_nil] at hwhole
    omega
  have hmax : handshakeLenAt msg ≤ maxHandshake := by
    rw [maxHandshake]
    omega
  have hdelivered : Delivered [taken] [msg] := .cons ⟨hne, hone.fits, hbytes⟩ .nil
  have hmsg : [msg].flatten = msg := by simp
  have hreads : [taken].flatten = taken := by simp
  have hread := hdelivered.readHandshake rest (by rw [hmsg]; exact hwhole)
    (by rw [hmsg]; exact hmax)
  rw [hmsg, hreads] at hread
  exact hread

end Reality
