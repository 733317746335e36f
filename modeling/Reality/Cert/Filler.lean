import Mathlib.Order.Bounds.Basic
import Reality.Cert.Plan

/-!
# The filler certificate that fits

`createFillerCertFit` (cert_plan.go) searches for the padding of a filler whose
DER is at least `want` bytes long, and not longer than `maxEntry`. The search
halves a window of paddings and keeps the best DER so far by two rules: a DER
that is long enough always replaces it, a shorter one only when it is no shorter
than the best. What makes the outcome the best there is, is that the DER does not
get shorter with more padding.

The window has, at any time, the paddings below it too short and those above it
long enough; the best DER belongs to the padding next to the window, above it or
below it.
-/

namespace Reality

open Kit

/-- The lengths do not get less up to the padding `last`. -/
def GrowsUpTo (f : Int → Nat) (last : Int) : Prop := ∀ a b, 0 ≤ a → a ≤ b → b ≤ last → f a ≤ f b

/-- The lengths of the fillers up to the padding `last`. -/
def lensUpTo (f : Int → Nat) (last : Int) : Set Nat :=
  {n | ∃ mid, (0 ≤ mid ∧ mid ≤ last) ∧ f mid = n}

/-- What the library answers when the search asks it for a filler: a DER whose
length depends on the padding alone and does not get less with it. -/
structure FillerLengths (x : X509) (certMeta : Option DestCertMeta) (chainIdx : Nat)
    (f : Int → Nat) (last : Int) : Prop where
  made : ∀ k mid, 0 ≤ mid → mid ≤ last → ∃ der,
    x.createCertificate k (.filler (mid + 200) certMeta chainIdx) = some der ∧ der.length = f mid
  mono : GrowsUpTo f last

section Window

variable {f : Int → Nat} {last want maxEntry lo hi mid : Int} {best : Option Bytes} {der : Bytes}

/-- Where the best DER comes from. -/
inductive BestAt (f : Int → Nat) (last maxEntry lo hi : Int) : Option Bytes → Prop where
  -- All that were tried are too long.
  | nothing (hlo : lo = 0) (hover : ∀ mid, hi < mid → mid ≤ last → maxEntry < f mid) :
      BestAt f last maxEntry lo hi none
  | short (der : Bytes) (hlen : der.length = f (lo - 1)) (hlo : 0 < lo)
      (hover : ∀ mid, hi < mid → mid ≤ last → maxEntry < f mid) :
      BestAt f last maxEntry lo hi (some der)
  | enough (der : Bytes) (hlen : der.length = f (hi + 1)) (hhi : hi < last)
      (hfits : (f (hi + 1) : Int) ≤ maxEntry) : BestAt f last maxEntry lo hi (some der)

/-- The invariant of the search. -/
structure Window (f : Int → Nat) (last want maxEntry lo hi : Int) (best : Option Bytes) :
    Prop where
  lo_nonneg : 0 ≤ lo
  hi_le : hi ≤ last
  meet : lo ≤ hi + 1
  below : ∀ mid, 0 ≤ mid → mid < lo → (f mid : Int) < want
  above : ∀ mid, hi < mid → mid ≤ last → want ≤ f mid
  best : BestAt f last maxEntry lo hi best

theorem window_start (h : 0 ≤ last) : Window f last want maxEntry 0 last none :=
  ⟨le_rfl, le_rfl, by omega, fun _ h h' => by omega, fun _ h h' => by omega,
    .nothing rfl fun _ h h' => by omega⟩

/-- Lengths in the range, as the comparisons have them. -/
theorem filler_le (hmono : GrowsUpTo f last) {a b : Int} (ha : 0 ≤ a) (hab : a ≤ b)
    (hb : b ≤ last) : (f a : Int) ≤ f b :=
  Int.ofNat_le.mpr (hmono a b ha hab hb)

/-- A DER that is too short: it is no shorter than a short one before it, and it does
not replace one that is long enough. -/
theorem Window.tooShort (h : Window f last want maxEntry lo hi best)
    (hmono : GrowsUpTo f last) (hlo : lo ≤ mid) (hhi : mid ≤ hi)
    (hlen : der.length = f mid) (hshort : (f mid : Int) < want) :
    Window f last want maxEntry (mid + 1) hi
      (if (best.getD []).length ≤ der.length then some der else best) := by
  have hnonneg := h.lo_nonneg
  have hlast := h.hi_le
  have hprev : mid + 1 - 1 = mid := by omega
  refine ⟨by omega, h.hi_le, by omega, ?_, h.above, ?_⟩
  · intro m hm hlt
    have := filler_le hmono hm (Int.lt_add_one_iff.mp hlt) (by omega)
    omega
  · cases h.best with
    | nothing hzero hover =>
        rw [if_pos (by simp)]
        exact .short der (by rw [hprev, hlen]) (by omega) hover
    | short der₀ hlen₀ hpos hover =>
        have hle := filler_le hmono (a := lo - 1) (b := mid) (by omega) (by omega) (by omega)
        rw [Option.getD_some, if_pos (by omega)]
        exact .short der (by rw [hprev, hlen]) (by omega) hover
    | enough der₀ hlen₀ hlt hfits =>
        have hwant := h.above (hi + 1) (by omega) (by omega)
        rw [Option.getD_some, if_neg (by omega)]
        exact .enough der₀ hlen₀ hlt hfits

/-- A DER that is long enough and fits. -/
theorem Window.longEnough (h : Window f last want maxEntry lo hi best)
    (hmono : GrowsUpTo f last) (hlo : lo ≤ mid) (hhi : mid ≤ hi)
    (hlen : der.length = f mid) (hlong : want ≤ f mid) (hfits : (f mid : Int) ≤ maxEntry) :
    Window f last want maxEntry lo (mid - 1) (some der) := by
  have hnonneg := h.lo_nonneg
  have hlast := h.hi_le
  have hnext : mid - 1 + 1 = mid := by omega
  refine ⟨h.lo_nonneg, by omega, by omega, h.below, ?_, ?_⟩
  · intro m hlt hm
    have := filler_le hmono (a := mid) (b := m) (by omega) (by omega) hm
    omega
  · exact .enough der (by rw [hnext, hlen]) (by omega) (by rw [hnext]; exact hfits)

/-- A DER that does not fit: one that is long enough was not found before. -/
theorem Window.tooLong (h : Window f last want maxEntry lo hi best)
    (hmono : GrowsUpTo f last) (hwant : want ≤ maxEntry) (hlo : lo ≤ mid)
    (hhi : mid ≤ hi) (hlong : maxEntry < f mid) :
    Window f last want maxEntry lo (mid - 1) best := by
  have hnonneg := h.lo_nonneg
  have hlast := h.hi_le
  have hover : ∀ m, mid - 1 < m → m ≤ last → maxEntry < f m := by
    intro m hlt hm
    have := filler_le hmono (a := mid) (b := m) (by omega) (by omega) hm
    omega
  refine ⟨h.lo_nonneg, by omega, by omega, h.below, ?_, ?_⟩
  · intro m hlt hm
    have := hover m hlt hm
    omega
  · cases h.best with
    | nothing hzero _ => exact .nothing hzero hover
    | short der₀ hlen₀ hpos _ => exact .short der₀ hlen₀ hpos hover
    | enough der₀ hlen₀ hlt hfits =>
        have := filler_le hmono (a := mid) (b := hi + 1) (by omega) (by omega) (by omega)
        omega

/-! ## Where the search ends -/

/-- The best DER for the lengths there are, or none: the shortest that is long enough,
or else the longest that fits. -/
structure BestFiller (lens : Set Nat) (want maxEntry : Int) (best : Option Bytes) : Prop where
  enough : (∃ n ∈ lens, want ≤ n ∧ (n : Int) ≤ maxEntry) →
    ∃ der, best = some der ∧ IsLeast {n | n ∈ lens ∧ want ≤ n ∧ (n : Int) ≤ maxEntry} der.length
  short : (¬ ∃ n ∈ lens, want ≤ n ∧ (n : Int) ≤ maxEntry) → (∃ n ∈ lens, (n : Int) ≤ maxEntry) →
    ∃ der, best = some der ∧ IsGreatest {n | n ∈ lens ∧ (n : Int) ≤ maxEntry} der.length
  nothing : best = none ↔ ∀ n ∈ lens, maxEntry < n

theorem bestFiller_none {lens : Set Nat} (hall : ∀ n ∈ lens, maxEntry < n) :
    BestFiller lens want maxEntry none := by
  refine ⟨?_, ?_, iff_of_true rfl hall⟩
  · rintro ⟨n, hn, -, hle⟩
    have := hall n hn
    omega
  · rintro - ⟨n, hn, hle⟩
    have := hall n hn
    omega

theorem bestFiller_enough {lens : Set Nat} (hmem : der.length ∈ lens) (hge : want ≤ der.length)
    (hle : (der.length : Int) ≤ maxEntry) (hleast : ∀ n ∈ lens, want ≤ n → der.length ≤ n) :
    BestFiller lens want maxEntry (some der) := by
  refine ⟨fun _ => ⟨der, rfl, ⟨hmem, hge, hle⟩, fun n hn => hleast n hn.1 hn.2.1⟩, ?_, ?_⟩
  · intro hno
    exact absurd ⟨_, hmem, hge, hle⟩ hno
  · refine iff_of_false (by simp) fun hall => ?_
    have := hall _ hmem
    omega

theorem bestFiller_short {lens : Set Nat} (hmem : der.length ∈ lens)
    (hle : (der.length : Int) ≤ maxEntry)
    (hno : ¬ ∃ n ∈ lens, want ≤ n ∧ (n : Int) ≤ maxEntry)
    (hgreatest : ∀ n ∈ lens, (n : Int) ≤ maxEntry → n ≤ der.length) :
    BestFiller lens want maxEntry (some der) := by
  refine ⟨fun h => absurd h hno, ?_, ?_⟩
  · exact fun _ _ => ⟨der, rfl, ⟨hmem, hle⟩, fun n hn => hgreatest n hn.1 hn.2⟩
  · refine iff_of_false (by simp) fun hall => ?_
    have := hall _ hmem
    omega

/-- An empty window tells the paddings that are long enough from the others. -/
theorem Window.bestFiller (h : Window f last want maxEntry lo hi best)
    (hmono : GrowsUpTo f last) (hwant : want ≤ maxEntry) (hempty : ¬ lo ≤ hi) :
    BestFiller (lensUpTo f last) want maxEntry best := by
  obtain ⟨hnonneg, hlast, hmeet, hbelow, habove, hbest⟩ := h
  have hlo : lo = hi + 1 := by omega
  cases hbest with
  | nothing hzero hover =>
      apply bestFiller_none
      rintro n ⟨mid, ⟨hm, hm'⟩, rfl⟩
      exact hover mid (by omega) hm'
  | short der hlen hpos hover =>
      have hshort := hbelow (lo - 1) (by omega) (by omega)
      refine bestFiller_short ⟨lo - 1, ⟨by omega, by omega⟩, hlen.symm⟩ (by omega) ?_ ?_
      · rintro ⟨n, ⟨mid, ⟨hm, hm'⟩, rfl⟩, hge, hle⟩
        by_cases hlt : mid < lo
        · have := hbelow mid hm hlt
          omega
        · have := hover mid (by omega) hm'
          omega
      · rintro n ⟨mid, ⟨hm, hm'⟩, rfl⟩ hle
        have hmid : mid ≤ lo - 1 := by
          by_contra hgt
          have := hover mid (by omega) hm'
          omega
        have := filler_le hmono hm hmid (by omega)
        omega
  | enough der hlen hlt hfits =>
      have hlong := habove (hi + 1) (by omega) (by omega)
      refine bestFiller_enough ⟨hi + 1, ⟨by omega, by omega⟩, hlen.symm⟩ (by omega) (by omega) ?_
      rintro n ⟨mid, ⟨hm, hm'⟩, rfl⟩ hge
      have hmid : hi + 1 ≤ mid := by
        by_contra hgt
        have := hbelow mid hm (by omega)
        omega
      have := filler_le hmono (a := hi + 1) (by omega) hmid hm'
      omega

end Window

section Search

variable {x : X509} {certMeta : Option DestCertMeta} {chainIdx : Nat} {f : Int → Nat}
  {last want maxEntry lo hi : Int} {best : Option Bytes}

open Calls in
/-- The invariant over the whole search. -/
theorem fillerSearch_best (hf : FillerLengths x certMeta chainIdx f last)
    (hwant : want ≤ maxEntry) (h : Window f last want maxEntry lo hi best) :
    Returns (fillerSearch x want maxEntry certMeta chainIdx lo hi best)
      (BestFiller (lensUpTo f last) want maxEntry) := by
  fun_induction fillerSearch x want maxEntry certMeta chainIdx lo hi best with
  | case1 lo hi best hle mid ihOver ihShort ihLong =>
      have hmid : lo ≤ mid ∧ mid ≤ hi := by omega
      have hnonneg := h.lo_nonneg
      have hlast := h.hi_le
      have hmade : Returns (createFillerCertStyled x (mid + 200) certMeta chainIdx)
          (fun r => ∃ der, r = some der ∧ der.length = f mid) :=
        fun k => hf.made k mid (by omega) (by omega)
      refine .bind hmade ?_
      rintro _ ⟨der, rfl, hlen⟩
      refine .ite (fun hfits => .ite (fun hshort => ?_) fun hlong => ?_) fun hover => ?_
      · exact ihShort der (h.tooShort hf.mono hmid.1 hmid.2 hlen (by omega))
      · exact ihLong der (h.longEnough hf.mono hmid.1 hmid.2 hlen (by omega) (by omega))
      · exact ihOver (h.tooLong hf.mono hwant hmid.1 hmid.2 (by omega))
  | case2 lo hi best hgt => exact .pure (h.bestFiller hf.mono hwant hgt)

open Calls in
/-- No padding is tried twice. -/
theorem fillerSearch_asks :
    Asks (fillerSearch x want maxEntry certMeta chainIdx lo hi best) (hi + 1 - lo).toNat := by
  fun_induction fillerSearch x want maxEntry certMeta chainIdx lo hi best with
  | case1 lo hi best hle mid ihOver ihShort ihLong =>
      have hsplit : 1 + ((hi + 1 - lo).toNat - 1) = (hi + 1 - lo).toNat := by omega
      rw [← hsplit]
      refine .bind (asks_ask _) fun r => ?_
      cases r with
      | none => exact ihOver.mono (by omega)
      | some der =>
          refine .ite (.ite ?_ ?_) ?_
          · exact (ihShort der).mono (by omega)
          · exact (ihLong der).mono (by omega)
          · exact ihOver.mono (by omega)
  | case2 lo hi best hgt => exact (Asks.pure best).mono (Nat.zero_le _)

end Search

/-! ## The filler that is returned -/

section Returned

variable {lens : Set Nat} {want maxEntry : Int} {best : Option Bytes}

/-- What is returned has one of the lengths, and fits. -/
theorem BestFiller.mem (h : BestFiller lens want maxEntry best) {der : Bytes}
    (hbest : best = some der) : der.length ∈ lens ∧ (der.length : Int) ≤ maxEntry := by
  have hfits : ∃ n ∈ lens, (n : Int) ≤ maxEntry := by
    by_contra hno
    have hnone := h.nothing.mpr fun n hn => not_le.mp fun hle => hno ⟨n, hn, hle⟩
    rw [hbest] at hnone
    cases hnone
  by_cases henough : ∃ n ∈ lens, want ≤ n ∧ (n : Int) ≤ maxEntry
  · obtain ⟨der', hder', hleast⟩ := h.enough henough
    rw [hbest] at hder'
    cases hder'
    exact ⟨hleast.1.1, hleast.1.2.2⟩
  · obtain ⟨der', hder', hgreatest⟩ := h.short henough hfits
    rw [hbest] at hder'
    cases hder'
    exact hgreatest.1

theorem filter_ne_nil {der : Bytes} (h : 0 < der.length) :
    (some der).filter (fun fc => fc ≠ []) = some der := by
  simp [List.ne_nil_of_length_pos h]

/-- An empty DER is taken for none, which leaves the lengths that are not zero. -/
theorem BestFiller.filter (h : BestFiller lens want maxEntry best) (hwant : 0 < want) :
    BestFiller (lens \ {0}) want maxEntry (best.filter fun fc => fc ≠ []) := by
  by_cases henough : ∃ n ∈ lens, want ≤ n ∧ (n : Int) ≤ maxEntry
  · obtain ⟨der, rfl, ⟨hmem, hge, hle⟩, hleast⟩ := h.enough henough
    have hpos : 0 < der.length := by omega
    rw [filter_ne_nil hpos]
    refine bestFiller_enough ⟨hmem, hpos.ne'⟩ hge hle fun n hn hge' => ?_
    by_cases hle' : (n : Int) ≤ maxEntry
    · exact hleast ⟨hn.1, hge', hle'⟩
    · omega
  have hno : ¬ ∃ n ∈ lens \ {0}, want ≤ n ∧ (n : Int) ≤ maxEntry := by
    rintro ⟨n, hn, hin⟩
    exact henough ⟨n, hn.1, hin⟩
  by_cases hfits : ∃ n ∈ lens, (n : Int) ≤ maxEntry
  · obtain ⟨der, rfl, ⟨hmem, hle⟩, hgreatest⟩ := h.short henough hfits
    by_cases hnil : der = []
    · subst hnil
      refine bestFiller_none fun n hn => not_le.mp fun hle' => ?_
      exact hn.2 (Nat.le_zero.mp (hgreatest ⟨hn.1, hle'⟩))
    · have hpos := List.length_pos_of_ne_nil hnil
      rw [filter_ne_nil hpos]
      exact bestFiller_short ⟨hmem, hpos.ne'⟩ hle hno fun n hn hle' => hgreatest ⟨hn.1, hle'⟩
  · have hall : ∀ n ∈ lens, maxEntry < n := fun n hn => not_le.mp fun hle => hfits ⟨n, hn, hle⟩
    rw [h.nothing.mpr hall]
    exact bestFiller_none fun n hn => hall n hn.1

end Returned

/-- The length that is aimed at. -/
def fillerWant (want maxEntry : Int) : Int := max 64 (min want maxEntry)

/-- The largest padding that is tried. -/
def fillerLast (want maxEntry : Int) : Int := min (fillerWant want maxEntry) 1800

/-- The lengths of the fillers in the range; an empty DER is none. -/
def fillerLens (f : Int → Nat) (last : Int) : Set Nat := lensUpTo f last \ {0}

open Calls in
/-- **The filler is the best there is.** The search ends, with at most one certificate
for each padding. -/
theorem createFillerCertFit_best {x : X509} {certMeta : Option DestCertMeta} {chainIdx : Nat}
    {want maxEntry : Int} {f : Int → Nat} (hmax : 64 ≤ maxEntry)
    (hf : FillerLengths x certMeta chainIdx f (fillerLast want maxEntry)) :
    Asks (createFillerCertFit x want maxEntry certMeta chainIdx)
        ((fillerLast want maxEntry).toNat + 1) ∧
      Returns (createFillerCertFit x want maxEntry certMeta chainIdx) fun best =>
        (∀ der, best = some der → (der.length : Int) ≤ maxEntry) ∧
        BestFiller (fillerLens f (fillerLast want maxEntry)) (fillerWant want maxEntry) maxEntry
          best := by
  have hwant : fillerWant want maxEntry ≤ maxEntry := by
    unfold fillerWant
    omega
  have hpos : 64 ≤ fillerWant want maxEntry := le_max_left ..
  have hlast : 0 ≤ fillerLast want maxEntry := by
    unfold fillerLast
    omega
  rw [createFillerCertFit, if_neg (by omega)]
  constructor
  · refine Asks.mono (.bind fillerSearch_asks fun best => .pure _) ?_
    show (fillerLast want maxEntry + 1 - 0).toNat + 0 ≤ _
    omega
  · refine .bind (fillerSearch_best hf hwant (window_start hlast)) fun best hbest => .pure ?_
    have hfilter := hbest.filter (by omega)
    exact ⟨fun der hder => (hfilter.mem hder).2, hfilter⟩

/-- A library whose fillers are as long as they are asked to be. -/
def exactX509 : X509 where
  createCertificate _ template :=
    match template with
    | .leaf .. => none
    | .filler approxLen .. => some (List.replicate approxLen.toNat 0)
  signature _ := none
  locateMLDSAOffset _ := none

theorem exactX509_lengths (last : Int) :
    FillerLengths exactX509 none 0 (fun mid => (mid + 200).toNat) last where
  made k mid _ _ := ⟨_, rfl, List.length_replicate⟩
  mono := by
    intro a b _ hab _
    show (a + 200).toNat ≤ (b + 200).toNat
    omega

open Calls in
/-- A filler of 300 bytes is wanted, and there is one. -/
theorem createFillerCertFit_best_exact :
    Asks (createFillerCertFit exactX509 300 400 none 0) 301 ∧
      Returns (createFillerCertFit exactX509 300 400 none 0)
        (fun best => ∃ der, best = some der ∧ der.length = 300) := by
  obtain ⟨hasks, hbest⟩ := createFillerCertFit_best (by decide : (64 : Int) ≤ 400)
    (exactX509_lengths (fillerLast 300 400))
  refine ⟨hasks, fun k => ?_⟩
  have hmem : 300 ∈ fillerLens (fun mid => (mid + 200).toNat) (fillerLast 300 400) :=
    ⟨⟨100, ⟨by decide, by decide⟩, rfl⟩, by decide⟩
  obtain ⟨der, hder, hleast⟩ := (hbest k).2.enough ⟨300, hmem, by decide, by decide⟩
  have hge : fillerWant 300 400 ≤ der.length := hleast.1.2.1
  have hle : der.length ≤ 300 := hleast.2 ⟨hmem, by decide, by decide⟩
  have hwant : fillerWant 300 400 = 300 := rfl
  exact ⟨der, hder, by omega⟩

end Reality
