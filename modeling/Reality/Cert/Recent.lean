import Reality.Cert.Calibration
import Reality.Kit.Ring
import Reality.Kit.SwapSort

/-!
# What the percentile of the EncryptedExtensions is

`NoteDestEEPlain` (dest_cert_meta.go) writes the samples of a dest into a ring of
eight (`Kit.RingOf`), and `GetDestEEPlainP90` sorts what the ring holds
(`Kit.swapSort`) and takes the element at nine tenths. Of at most eight elements
that is always the last one: the percentile is the MAXIMUM of the recent samples.
-/

namespace Reality

open Kit

/-! ## The samples in the ring -/

/-- A sample that is not ignored. -/
def IsSample (eePlain : Int) : Prop := 12 ≤ eePlain ∧ eePlain ≤ 512

instance (eePlain : Int) : Decidable (IsSample eePlain) := inferInstanceAs (Decidable (_ ∧ _))

/-- The last samples, as many as the ring has cells. -/
def recent (samples : List Int) : List Int :=
  samples.drop (samples.length - min 8 samples.length)

theorem recent_eq (samples : List Int) : recent samples = samples.drop (samples.length - 8) := by
  rw [recent]
  congr 1
  omega

def EEStats.Holds (st : EEStats) (samples : List Int) : Prop :=
  RingOf samples st.samples st.n st.idx

theorem EEStats.Holds.note {st : EEStats} {samples : List Int} (h : st.Holds samples)
    (eePlain : Int) :
    (st.noteDestEEPlain eePlain).Holds
      (if IsSample eePlain then samples ++ [eePlain] else samples) := by
  unfold EEStats.noteDestEEPlain
  split
  next hrange =>
    rw [if_neg fun hs : IsSample eePlain => by have := hs.1; have := hs.2; omega]
    exact h
  next hrange =>
    have hs : IsSample eePlain := ⟨by omega, by omega⟩
    rw [if_pos hs]
    exact RingOf.push h eePlain

/-- The ring after a history. -/
theorem eeStats_holds (history : List Int) :
    (eeStats history).Holds (history.filter IsSample) := by
  suffices hrun : ∀ (history : List Int) (st : EEStats) (samples : List Int), st.Holds samples →
      (history.foldl EEStats.noteDestEEPlain st).Holds (samples ++ history.filter IsSample) from
    hrun history {} [] (ringOf_nil _)
  intro history
  induction history with
  | nil =>
      intro st samples h
      rw [List.filter_nil, List.append_nil]
      exact h
  | cons eePlain history ih =>
      intro st samples h
      have hnext := ih _ _ (h.note eePlain)
      rw [List.foldl_cons]
      by_cases hs : IsSample eePlain
      · rw [if_pos hs, List.append_assoc] at hnext
        rw [List.filter_cons_of_pos (by simpa using hs)]
        exact hnext
      · rw [if_neg hs] at hnext
        rw [List.filter_cons_of_neg (by simpa using hs)]
        exact hnext

/-! ## The percentile of the ring -/

/-- The list that is sorted: the cells in use, as they are stored. -/
def EEStats.tmp (st : EEStats) : List Int := (List.ofFn st.samples).take st.n

/-- The answer, with the source's own loop for the sort. -/
theorem EEStats.getDestEEPlainP90_swapSort (st : EEStats) :
    st.getDestEEPlainP90 =
      if st.n = 0 then (0, 0, false)
      else ((swapSort st.tmp).getD (min (st.n * 9 / 10) (st.n - 1)) 0, st.n,
        decide (3 ≤ st.n)) := by
  rw [swapSort_eq]
  rfl

theorem EEStats.getDestEEPlainP90_ok (st : EEStats) :
    st.getDestEEPlainP90.2.2 = true ↔ 3 ≤ st.n := by
  unfold EEStats.getDestEEPlainP90
  split
  next h => simp [h]
  next => simp

/-- Nine tenths of at most ten elements is the last of them, and the last of a
sorted list is the greatest. -/
theorem EEStats.getDestEEPlainP90_max {st : EEStats} (hpos : 0 < st.n) (hle : st.n ≤ 8) :
    st.tmp.max? = some st.getDestEEPlainP90.1 := by
  have hlen : (swapSort st.tmp).length = st.n := by
    rw [swapSort_eq, List.length_insertionSort, EEStats.tmp, List.length_take, List.length_ofFn]
    omega
  have hne : swapSort st.tmp ≠ [] := List.ne_nil_of_length_pos (by omega)
  have hindex : min (st.n * 9 / 10) (st.n - 1) = (swapSort st.tmp).length - 1 := by omega
  have hlast : st.getDestEEPlainP90.1 = (swapSort st.tmp).getLast hne := by
    rw [getDestEEPlainP90_swapSort, if_neg (by omega)]
    show (swapSort st.tmp).getD _ 0 = _
    rw [hindex, List.getLast_eq_getElem, List.getD_eq_getElem]
  have hmem : ∀ x, x ∈ swapSort st.tmp ↔ x ∈ st.tmp := by
    intro x
    rw [swapSort_eq, List.mem_insertionSort]
  have hsorted : (swapSort st.tmp).Pairwise (· ≤ ·) := by
    rw [swapSort_eq]
    exact List.pairwise_insertionSort _ _
  rw [List.max?_eq_some_iff, hlast]
  exact ⟨(hmem _).mp (List.getLast_mem hne), fun x hx => hsorted.rel_getLast ((hmem x).mpr hx)⟩

/-- **The percentile of a history is the maximum of its recent samples.** -/
theorem EEStats.Holds.getDestEEPlainP90 {st : EEStats} {samples : List Int}
    (h : st.Holds samples) :
    (st.getDestEEPlainP90.2.2 = true ↔ 3 ≤ samples.length) ∧
      (3 ≤ samples.length → (recent samples).max? = some st.getDestEEPlainP90.1) := by
  have hused : st.n = min 8 samples.length := h.used
  rw [st.getDestEEPlainP90_ok]
  refine ⟨by omega, fun henough => ?_⟩
  have hmax := st.getDestEEPlainP90_max (by omega) (by omega)
  rw [List.max?_eq_some_iff] at hmax ⊢
  rw [recent_eq]
  exact ⟨(h.mem_iff _).mp hmax.1, fun x hx => hmax.2 x ((h.mem_iff x).mpr hx)⟩

/-! ## Every dest, and every sequence of notes -/

/-- The samples of a history that are accepted for a dest; a blank name takes none. -/
def acceptedSamples (trimSpace : Bytes → Bytes) (history : List (Bytes × Int)) (dest : Bytes) :
    List Int :=
  if trimSpace dest = [] then [] else (samplesOf trimSpace history dest).filter IsSample

theorem eeStatsOf_holds (trimSpace : Bytes → Bytes) (history : List (Bytes × Int)) (dest : Bytes) :
    (eeStatsOf trimSpace (eeMapOf trimSpace history) dest).Holds
      (acceptedSamples trimSpace history dest) := by
  by_cases hd : trimSpace dest = []
  · rw [acceptedSamples, if_pos hd, eeStatsOf, if_pos hd]
    exact ringOf_nil _
  · rw [acceptedSamples, if_neg hd, eeStatsOf_eeMapOf hd]
    exact eeStats_holds _

/-- The percentile is there from three samples on, and is then the maximum of the
last eight: the reserve reckons with EncryptedExtensions that are no shorter than
any of them. -/
theorem getDestEEPlainP90_eq_max (trimSpace : Bytes → Bytes) (history : List (Bytes × Int))
    (dest : Bytes) :
    ((getDestEEPlainP90 trimSpace (eeMapOf trimSpace history) dest).2.2 = true
        ↔ 3 ≤ (acceptedSamples trimSpace history dest).length) ∧
      (3 ≤ (acceptedSamples trimSpace history dest).length →
        (recent (acceptedSamples trimSpace history dest)).max?
          = some (getDestEEPlainP90 trimSpace (eeMapOf trimSpace history) dest).1 ∧
        ∀ eePlain ∈ recent (acceptedSamples trimSpace history dest),
          eePlain ≤ (getDestEEPlainP90 trimSpace (eeMapOf trimSpace history) dest).1 ∧
          eePlain + coalescedEEHeadroom + coalescedCVEd25519 + coalescedFinishedSHA256
              + coalescedSafetyInner
            ≤ (eeStatsOf trimSpace (eeMapOf trimSpace history) dest).reserve) := by
  have hholds := eeStatsOf_holds trimSpace history dest
  rw [getDestEEPlainP90_eq]
  generalize eeStatsOf trimSpace (eeMapOf trimSpace history) dest = st at hholds ⊢
  obtain ⟨hok, hmax⟩ := hholds.getDestEEPlainP90
  refine ⟨hok, fun henough => ⟨hmax henough, fun eePlain hrecent => ?_⟩⟩
  have hle := (List.max?_eq_some_iff.mp (hmax henough)).2 eePlain hrecent
  have hallow : st.getDestEEPlainP90.1 ≤ st.allowance := by
    rw [EEStats.allowance, eeAllowance, if_pos (hok.mpr henough)]
    exact le_max_right ..
  rw [EEStats.reserve_eq]
  exact ⟨hle, by omega⟩

end Reality
