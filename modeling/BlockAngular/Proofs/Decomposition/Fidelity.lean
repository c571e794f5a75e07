import BlockAngular.Proofs.Decomposition.Attributes

/-! # Images have the attributes of their variables

The effective bounds of a variable are read once and become the declared bounds of its image,
which has the same domain. Reading them again finds the same bounds: the domain has nothing left
to tighten. So the attributes of an image are those of the variable, however the declared bounds
and those of the domain lie to each other.
-/

namespace BlockAngular

namespace Variable

variable {own bound : Value} {ofDomain : Option Int} {openSide : Exact}
  {tighter : Exact → Exact → Bool}

/-- The bound of a domain is the tightest one beside itself. -/
theorem tightest_of_domain (ofDomain : Option Int) (openSide : Exact)
    (tighter : Exact → Exact → Bool) :
    tightest ((ofDomain.map Value.int).getD .null) ofDomain openSide tighter =
    .ok ((ofDomain.map Value.int).getD .null) := by
  cases ofDomain with
  | none => rfl
  | some n => simp [tightest, Value.real?]

/-- The tighter one of two bounds stays the tighter one beside the bound of the domain. -/
theorem tightest_tightest (h : tightest own ofDomain openSide tighter = .ok bound) :
    tightest bound ofDomain openSide tighter = .ok bound := by
  unfold tightest at h
  split at h
  · cases h
    exact tightest_of_domain ofDomain openSide tighter
  · rename_i present
    split at h
    · rename_i unreal
      cases ofDomain with
      | some n => cases h
      | none =>
          simp only at h
          split_ifs at h with storable
          cases h
          simp [tightest, unreal, storable]
    · rename_i q real
      cases ofDomain with
      | none =>
          cases h
          simp [tightest, real]
      | some n =>
          simp only [Except.ok.injEq] at h
          split_ifs at h with excluded
          · subst h
            exact tightest_of_domain (some n) openSide tighter
          · subst h
            simp [tightest, real, excluded]
    · split_ifs at h
      cases h
      exact tightest_of_domain ofDomain openSide tighter

/-- An image of a variable: it has the same attributes, in every field, and the same domain. -/
structure IsCopy (w v : Variable) : Prop where
  attributes : ∃ a, Attributes.ofVariable? v = .ok a ∧ Attributes.ofVariable? w = .ok a
  domain : w.domain = v.domain
  /-- No variable is flagged as binary and as integer. -/
  flags : ∀ a, Attributes.ofVariable? w = .ok a → (a.binary && a.integer) = false
  /-- What is fixed without a value stays so. -/
  valueless : v.fixed = true → v.value = .null → w.fixed = true ∧ w.value = .null

/-- A variable with its effective bounds has the same ones. -/
theorem bounds_of_bounded {v w : Variable} (h : v.bounded? = .ok w) :
    w.lowerBound = v.lowerBound ∧ w.upperBound = v.upperBound := by
  simp only [bounded?, Success.bind_ok, Success.pure_ok] at h
  obtain ⟨lower, hlower, upper, hupper, rfl⟩ := h
  exact ⟨(tightest_tightest hlower).trans hlower.symm, (tightest_tightest hupper).trans hupper.symm⟩

/-- The only integers that are binary are not flagged as integers. -/
theorem flags_apart {v : Variable} {a : Attributes} (h : Attributes.ofVariable? v = .ok a) :
    (a.binary && a.integer) = false := by
  simp only [Attributes.ofVariable?, Success.bind_ok, Success.pure_ok] at h
  obtain ⟨_, -, _, -, rfl⟩ := h
  cases v.domain.isBinary <;> simp

/-- A variable with its effective bounds is a copy. -/
theorem isCopy_of_bounded {v w : Variable} (h : v.bounded? = .ok w) : w.IsCopy v := by
  obtain ⟨lower, upper⟩ := bounds_of_bounded h
  simp only [bounded?, Success.bind_ok, Success.pure_ok] at h
  obtain ⟨_, hlower, _, hupper, rfl⟩ := h
  have readable : ∃ a, Attributes.ofVariable? v = .ok a := by
    simp [Attributes.ofVariable?, hlower, hupper, bind, Except.bind, pure, Except.pure]
  obtain ⟨a, ha⟩ := readable
  refine ⟨⟨a, ha, ?_⟩, rfl, fun _ => flags_apart, fun fixed none => ⟨fixed, none⟩⟩
  rw [← ha, Attributes.ofVariable?, lower, upper]
  rfl

end Variable

namespace Reformulation

end Reformulation

namespace Decomposition

end Decomposition

end BlockAngular
