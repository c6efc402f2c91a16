import NovoApex.Lib.Crew

/-!
# Handlers of a smaller store

A program that is safe over its own store is safe over one that its own is part of. The
larger store answers the embedded statements as the smaller would and narrows its runs no
less; what its protocol asks beyond the smaller one's follows from what the smaller one
keeps and from what is known besides.
-/

namespace NovoApex.Lib
set_option autoImplicit false

variable {I J : Interface} {ι σ τ α : Type}

/-- The runs and the protocol of a larger store, as one of its handlers sees them that issues embedded statements only;
`known` is what it knows besides. -/
structure Protocol.Nested (f : I.Embedding J) (view : τ → σ) (R : Roster I ι σ) (P : Protocol ι σ) (R' : Roster J ι τ) (P' : Protocol ι τ)
    (i : ι) (known : τ → Prop) : Prop where
  reply : ∀ op t, f.reply op (R'.exec (f.op op) t).1 = (R.exec op (view t)).1
  effect : ∀ op t, view (R'.exec (f.op op) t).2 = (R.exec op (view t)).2
  fault : ∀ op, f.reply op (.error J.fault) = .error I.fault
  allow : ∀ op t, R'.allow t (f.op op) → R.allow (view t) op
  faults : ∀ op t, R'.faults t (f.op op) → R.faults (view t) op
  loses : ∀ op t, R'.loses t (f.op op) → R.loses (view t) op
  stops : ∀ op t, R'.stops t (f.op op) → R.stops (view t) op
  inv : ∀ t, P'.inv t → P.inv (view t)
  rely : ∀ s t, P'.rely i s t → P.rely i (view s) (view t)
  idle : ∀ t, P.idle i (view t) → P'.idle i t
  lasting : ∀ s t, P'.rely i s t → known s → known t
  keeps : ∀ op t, known t → P'.inv t → P.inv (view (R'.exec (f.op op) t).2) →
    (∀ j, j ≠ i → P.rely j (view t) (view (R'.exec (f.op op) t).2)) →
    P'.inv (R'.exec (f.op op) t).2 ∧ (∀ j, j ≠ i → P'.rely j t (R'.exec (f.op op) t).2) ∧ known (R'.exec (f.op op) t).2

/-- An embedded program is safe, and what it knew besides is still known. -/
theorem Safe.embed {f : I.Embedding J} {view : τ → σ} {R : Roster I ι σ} {P : Protocol ι σ} {R' : Roster J ι τ} {P' : Protocol ι τ} {i : ι}
    {known : τ → Prop} (nested : Protocol.Nested f view R P R' P' i known) {Q : Except I.Err α → σ → Prop} {p : Program I α} {s : τ}
    (start : known s) (h : Safe R P i Q p (view s)) :
    Safe R' P' i (fun r t => known t ∧ ∃ r', r = r'.mapError f.err ∧ Q r' (view t)) (p.embed f) s := by
  induction p generalizing s with
  | ret r => exact ⟨start, r, rfl, h⟩
  | stmt op next ih =>
    intro t rely inv
    have lasting := nested.lasting s t rely start
    obtain ⟨executed, failed, stopped⟩ := h (view t) (nested.rely s t rely) (nested.inv t inv)
    refine ⟨fun may => ?_, fun faults => ?_, fun stops => nested.idle t (stopped (nested.stops op t stops))⟩
    · obtain ⟨inv', others, replied, unreplied⟩ := executed (nested.allow op t may)
      rw [← nested.effect] at inv' others replied unreplied
      rw [← nested.reply] at replied
      obtain ⟨inv', others, after⟩ := nested.keeps op t lasting inv inv' others
      refine ⟨inv', others, ih _ after replied, fun loses => ?_⟩
      show Safe R' P' i _ ((next (f.reply op (.error J.fault))).embed f) _
      rw [nested.fault]
      exact ih _ after (unreplied (nested.loses op t loses))
    · show Safe R' P' i _ ((next (f.reply op (.error J.fault))).embed f) _
      rw [nested.fault]
      exact ih _ lasting (failed (nested.faults op t faults))

end NovoApex.Lib
