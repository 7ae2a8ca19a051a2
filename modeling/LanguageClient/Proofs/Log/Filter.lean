import LanguageClient.Log.Filter
import Mathlib.Data.List.Lex
import Mathlib.Data.Prod.Lex
import Mathlib.Data.String.Basic
import Mathlib.Order.Lattice.Nat

/-! Which rule of a filter decides about an event.

Rules stand in the order of their rank, and a rule gives way to a later one of the same reach. So
the rule that decides is the one of the highest rank among those that apply, and of several of
this rank the one that was added last.
-/

set_option autoImplicit false
namespace LanguageClient.Log

namespace Rule

/-- What a rule is judged by: the longer target, a field, and then the names. -/
def rank (rule : Rule) : ℕ ×ₗ Bool ×ₗ String ×ₗ String :=
  toLex (rule.targetLength, toLex (rule.field.isSome, toLex (rule.target.getD "", rule.field.getD "")))

theorem rank_inj {a b : Rule} : a.rank = b.rank ↔ a.target = b.target ∧ a.field = b.field := by
  constructor
  · intro same
    simp only [rank, toLex_inj, Prod.mk.injEq] at same
    obtain ⟨length, field, target, name⟩ := same
    constructor
    · cases left : a.target <;> cases right : b.target <;> simp_all [targetLength]
    · cases left : a.field <;> cases right : b.field <;> simp_all
  · rintro ⟨target, field⟩
    simp only [rank, targetLength, target, field]

theorem outranks_iff {a b : Rule} : a.outranks b = true ↔ b.rank < a.rank := by
  simp only [outranks, rank, Prod.Lex.toLex_lt_toLex]
  by_cases lengths : a.targetLength = b.targetLength
  · by_cases fields : a.field.isSome = b.field.isSome
    · by_cases targets : a.target = b.target
      · simp [lengths, fields, targets]
      · -- Two targets of the same length that differ are both there.
        have differ : b.target.getD "" ≠ a.target.getD "" := by
          cases left : a.target <;> cases right : b.target <;>
            simp_all [targetLength, eq_comm]
        simp [lengths, fields, targets, differ]
    · cases left : a.field.isSome <;> cases right : b.field.isSome <;> simp_all
  · simp [lengths, Ne.symm lengths]

theorem applies_congr {a b : Rule} (same : a.rank = b.rank) (site : Site) :
    a.applies site = b.applies site := by
  obtain ⟨target, field⟩ := rank_inj.mp same
  simp only [applies, target, field]

end Rule

namespace Filter

def Ranked (rules : List Rule) : Prop := rules.Pairwise fun a b => b.rank < a.rank

def prevail (reaches : Rule → Bool) (best : Option Rule) (rule : Rule) : Option Rule :=
  if reaches rule then
    match best with
    | some other => if rule.rank < other.rank then best else some rule
    | none => some rule
  else best

theorem prevail_reached {reaches : Rule → Bool} {rule : Rule} (reached : reaches rule = true) (best : Option Rule) :
    prevail reaches best rule =
      match best with
      | some other => if rule.rank < other.rank then best else some rule
      | none => some rule := if_pos reached

theorem prevail_unreached {reaches : Rule → Bool} {rule : Rule} (out : reaches rule = false) (best : Option Rule) :
    prevail reaches best rule = best := if_neg (ne_true_of_eq_false out)

section Insertion

variable {rules : List Rule} {rule other : Rule}

theorem rank_of_mem_insert (member : other ∈ insert rule rules) : other.rank = rule.rank ∨ other ∈ rules := by
  induction rules with
  | nil => simp_all [insert]
  | cons first rest ih =>
    rw [insert] at member
    split at member
    · rcases List.mem_cons.mp member with rfl | later
      · exact .inl rfl
      · exact .inr (List.mem_cons_of_mem _ later)
    · split at member
      · rcases List.mem_cons.mp member with rfl | later
        · exact .inl rfl
        · exact .inr later
      · rcases List.mem_cons.mp member with rfl | later
        · exact .inr List.mem_cons_self
        · exact (ih later).imp_right (List.mem_cons_of_mem _)

theorem ranked_insert (ranked : Ranked rules) (rule : Rule) : Ranked (insert rule rules) := by
  induction rules with
  | nil => exact List.pairwise_singleton _ _
  | cons first rest ih =>
    obtain ⟨above, behind⟩ := List.pairwise_cons.mp ranked
    rw [insert]
    split
    · rename_i same
      have level : rule.rank = first.rank := Rule.rank_inj.mpr same
      exact List.pairwise_cons.mpr ⟨fun k member => level ▸ above k member, behind⟩
    · rename_i other
      have apart : rule.rank ≠ first.rank := fun same => other (Rule.rank_inj.mp same)
      split
      · rename_i higher
        have higher := Rule.outranks_iff.mp higher
        refine List.pairwise_cons.mpr ⟨fun k member => ?_, ranked⟩
        rcases List.mem_cons.mp member with rfl | later
        · exact higher
        · exact (above k later).trans higher
      · rename_i lower
        have lower : rule.rank < first.rank :=
          lt_of_le_of_ne (not_lt.mp fun above => lower (Rule.outranks_iff.mpr above)) apart
        refine List.pairwise_cons.mpr ⟨fun k member => ?_, ih behind⟩
        rcases rank_of_mem_insert member with level | old
        · exact level ▸ lower
        · exact above k old

/-- The rule that decides after one more rule. -/
theorem find?_insert (ranked : Ranked rules) (rule : Rule) {reaches : Rule → Bool}
    (congr : ∀ a b : Rule, a.rank = b.rank → reaches a = reaches b) :
    (insert rule rules).find? reaches = prevail reaches (rules.find? reaches) rule := by
  induction rules with
  | nil => cases reached : reaches rule <;> simp [insert, prevail, reached]
  | cons first rest ih =>
    obtain ⟨above, behind⟩ := List.pairwise_cons.mp ranked
    have below {found : Rule} (there : rest.find? reaches = some found) : found.rank < first.rank :=
      above found (List.mem_of_find?_eq_some there)
    rw [insert]
    split
    · rename_i same
      have level : rule.rank = first.rank := Rule.rank_inj.mpr same
      have alike := congr _ _ level
      cases reached : reaches rule with
      | true => simp [prevail, reached, ← alike, level]
      | false => simp [prevail, reached, ← alike]
    · rename_i other
      have apart : rule.rank ≠ first.rank := fun same => other (Rule.rank_inj.mp same)
      split
      · rename_i higher
        have higher := Rule.outranks_iff.mp higher
        cases reached : reaches rule with
        | false => simp [List.find?_cons, prevail, reached]
        | true =>
          rw [List.find?_cons_of_pos reached, prevail_reached reached]
          split
          · rename_i found there
            have under : found.rank ≤ first.rank := by
              cases first' : reaches first with
              | true =>
                rw [List.find?_cons_of_pos first'] at there
                exact (Option.some.inj there) ▸ le_rfl
              | false =>
                rw [List.find?_cons_of_neg (by simp [first'])] at there
                exact (below there).le
            rw [if_neg (not_lt.mpr (under.trans higher.le))]
          · rfl
      · rename_i lower
        have lower : rule.rank < first.rank :=
          lt_of_le_of_ne (not_lt.mp fun above => lower (Rule.outranks_iff.mpr above)) apart
        cases first' : reaches first with
        | true => simp [prevail, first', lower]
        | false => simp only [List.find?_cons, first', ih behind]

end Insertion

section Rules

variable {reaches : Rule → Bool}

theorem ranked_foldl {filter : Filter} (ranked : Ranked filter.rules) (added : List Rule) :
    Ranked (added.foldl add filter).rules := by
  induction added generalizing filter with
  | nil => exact ranked
  | cons rule rest ih => exact ih (ranked_insert ranked rule)

theorem find?_foldl {filter : Filter} (ranked : Ranked filter.rules)
    (congr : ∀ a b : Rule, a.rank = b.rank → reaches a = reaches b) (added : List Rule) :
    (added.foldl add filter).rules.find? reaches =
      added.foldl (prevail reaches) (filter.rules.find? reaches) := by
  induction added generalizing filter with
  | nil => rfl
  | cons rule rest ih =>
    have inserted := @ih (filter.add rule) (ranked_insert ranked rule)
    rw [List.foldl_cons, inserted, List.foldl_cons, ← find?_insert ranked rule congr]
    rfl

/-- What prevails among all rules, if it ranks above a bound, is what prevails among those above it. -/
theorem prevail_above (bound : Rule) (added : List Rule) (best : Option Rule) :
    (added.foldl (prevail reaches) best).filter (fun rule => bound.rank < rule.rank) =
      added.foldl (prevail fun rule => reaches rule && decide (bound.rank < rule.rank))
        (best.filter fun rule => bound.rank < rule.rank) := by
  induction added generalizing best with
  | nil => rfl
  | cons rule rest ih =>
    rw [List.foldl_cons, List.foldl_cons, ih]
    congr 1
    cases reached : reaches rule with
    | false => simp [prevail, reached]
    | true =>
      cases best with
      | none => by_cases above : bound.rank < rule.rank <;> simp [prevail, reached, above, Option.filter]
      | some other =>
        by_cases above : bound.rank < rule.rank <;> by_cases lower : rule.rank < other.rank <;>
          by_cases beyond : bound.rank < other.rank <;>
          simp [prevail, reached, above, lower, beyond, Option.filter]
        · exact absurd (above.trans lower) beyond
        · exact absurd (beyond.trans_le (not_lt.mp lower)) above

theorem foldl_unreached {added : List Rule} (out : ∀ rule ∈ added, reaches rule = false)
    (best : Option Rule) : added.foldl (prevail reaches) best = best := by
  induction added with
  | nil => rfl
  | cons rule rest ih =>
    rw [List.foldl_cons, prevail_unreached (out rule List.mem_cons_self)]
    exact ih fun k member => out k (List.mem_cons_of_mem _ member)

end Rules

theorem ranked_ofDirectives (directives : List Directive) : Ranked (ofDirectives directives).rules := by
  unfold ofDirectives
  split
  · exact List.pairwise_singleton _ _
  · refine ranked_foldl ?_ _
    exact List.Pairwise.nil

end Filter
end LanguageClient.Log
