/-!
# Rows of results

A run gives one result after the other, and each result holds the state that it leaves. `Chain` says
that every result of a run is right for the state that the one before it left, and
`Chain.exists_right` that each is right for some state.
-/

namespace HolePunch

inductive Chain {σ ρ : Type} (left : ρ → σ) (right : σ → ρ → Prop) : σ → List ρ → Prop where
  | done (state : σ) : Chain left right state []
  | next {state : σ} {result : ρ} {later : List ρ} (here : right state result)
      (rest : Chain left right (left result) later) : Chain left right state (result :: later)

theorem Chain.exists_right {σ ρ : Type} {left : ρ → σ} {right : σ → ρ → Prop} {state : σ}
    {results : List ρ} (chain : Chain left right state results) :
    ∀ result ∈ results, ∃ before, right before result := by
  induction chain with
  | done => exact nofun
  | @next state _ _ here _ ih => exact List.forall_mem_cons.mpr ⟨⟨state, here⟩, ih⟩

end HolePunch
