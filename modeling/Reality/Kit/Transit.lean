import Mathlib.Data.List.Basic

/-!
# A stream between two parties that change

A sender puts messages on a wire, a receiver takes them off, and both change with every
message: a counter goes up, a key is replaced. They need not agree at any moment, since
there are messages in between. What holds is that the receiver WILL be in step with the
sender once it has taken everything that is on the wire.
-/

namespace Kit

variable {ρ σ α μ : Type}

/-- `Transit take inStep r wire ms s`: a receiver at `r` will take the messages `ms` off
the wire, all of it, and then be in step with the sender at `s`. -/
inductive Transit (take : ρ → List α → μ → ρ → List α → Prop) (inStep : ρ → σ → Prop) :
    ρ → List α → List μ → σ → Prop where
  | nil {r : ρ} {s : σ} (h : inStep r s) : Transit take inStep r [] [] s
  | cons {r r' : ρ} {wire wire' : List α} {m : μ} {ms : List μ} {s : σ}
      (h : take r wire m r' wire') (hrest : Transit take inStep r' wire' ms s) :
      Transit take inStep r wire (m :: ms) s

namespace Transit

variable {take : ρ → List α → μ → ρ → List α → Prop} {inStep : ρ → σ → Prop} {r : ρ}
  {wire : List α} {ms : List μ} {s s' : σ}

/-- Nothing is on its way only if nothing is on the wire. -/
theorem wire_nil (h : Transit take inStep r wire [] s) : wire = [] := by
  cases h
  rfl

/-- **Sending.** What a receiver in step with the sender would take may be put on the
wire behind what is there. -/
theorem send (htake : ∀ {r wire m r' wire'} (more : List α), take r wire m r' wire' →
      take r (wire ++ more) m r' (wire' ++ more))
    (h : Transit take inStep r wire ms s) {m : μ} {w : List α}
    (hsend : ∀ r, inStep r s → ∃ r', take r w m r' [] ∧ inStep r' s') :
    Transit take inStep r (wire ++ w) (ms ++ [m]) s' := by
  induction h with
  | nil hstep =>
      obtain ⟨r', htaken, hstep'⟩ := hsend _ hstep
      exact .cons htaken (.nil hstep')
  | cons htaken _ ih => exact .cons (htake w htaken) (ih hsend)

end Transit

end Kit
