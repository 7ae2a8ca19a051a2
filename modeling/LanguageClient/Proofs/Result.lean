import Mathlib.Data.List.Forall2

/-! Results of one stage after the other: where the whole succeeds, each stage does. -/

set_option autoImplicit false
namespace LanguageClient

section Stages

variable {ε α β : Type}

theorem ok_of_bind {x : Except ε α} {f : α → Except ε β} {b : β} (done : x >>= f = .ok b) :
    ∃ a, x = .ok a ∧ f a = .ok b := by
  cases x with
  | error e => cases done
  | ok a => exact ⟨a, rfl, done⟩

theorem ok_of_map {x : Except ε α} {f : α → β} {b : β} (done : x.map f = .ok b) :
    ∃ a, x = .ok a ∧ f a = b := by
  cases x with
  | error e => cases done
  | ok a => exact ⟨a, rfl, Except.ok.inj done⟩

theorem mapM_eq_ok_iff {f : α → Except ε β} {as : List α} {bs : List β} :
    as.mapM f = .ok bs ↔ List.Forall₂ (fun a b => f a = .ok b) as bs := by
  induction as generalizing bs with
  | nil =>
    rw [List.mapM_nil, List.forall₂_nil_left_iff]
    exact ⟨fun same => (Except.ok.inj same).symm, fun same => congrArg Except.ok same.symm⟩
  | cons a as ih =>
    rw [List.mapM_cons, List.forall₂_cons_left_iff]
    constructor
    · intro done
      obtain ⟨b, first, done⟩ := ok_of_bind done
      obtain ⟨others, later, done⟩ := ok_of_bind done
      exact ⟨b, others, first, ih.mp later, (Except.ok.inj done).symm⟩
    · rintro ⟨b, others, first, reads, rfl⟩
      rw [first, ih.mpr reads]
      rfl

theorem forall_of_forall₂ {r : α → β → Prop} {p : α → Prop} {q : β → Prop} {as : List α} {bs : List β}
    (related : List.Forall₂ r as bs) (given : ∀ a ∈ as, p a) (step : ∀ a b, p a → r a b → q b) : ∀ b ∈ bs, q b := by
  induction related with
  | nil => exact List.forall_mem_nil _
  | cons first _ ih =>
    obtain ⟨one, others⟩ := List.forall_mem_cons.mp given
    exact List.forall_mem_cons.mpr ⟨step _ _ one first, ih others⟩

end Stages
end LanguageClient
