import DomainEvents.Text.Dotted
import DomainEvents.Text.Quoted

/-!
# Interests

Which events a handler wants to see, by their names: all, those of certain names, or those of a
namespace, which are the ones whose segments start with the segments of the namespace
(`inSpace_iff_segments`).
-/

namespace DomainEvents

/-- Which events a handler wants to see. -/
inductive Interest where
  | all
  | anyOf (names : List String)
  | within (space : String)
deriving DecidableEq, Repr, Inhabited

namespace Interest

/-- Whether a name is the name of a namespace, or goes on after it with a dot. -/
def inSpace : List Char → List Char → Bool
  | [], [] => true
  | [], c :: _ => c == '.'
  | _ :: _, [] => false
  | s :: space, c :: name => s == c && inSpace space name

/-- Whether events of a name are wanted. -/
def covers : Interest → String → Bool
  | .all, _ => true
  | .anyOf names, name => names.contains name
  | .within space, name => inSpace space.toList name.toList

/-- A namespace goes on in a name exactly if its segments are the first segments of the name. -/
theorem inSpace_iff_segments (space name : List Char) :
    inSpace space name = true ↔ Text.segments space <+: Text.segments name := by
  have none : Text.segments [] = [[]] := rfl
  induction space generalizing name with
  | nil =>
    cases name with
    | nil => simp [inSpace]
    | cons c name =>
      obtain ⟨s, more, hs⟩ := List.exists_cons_of_ne_nil (Text.segments_ne_nil name)
      by_cases hc : c = '.' <;> simp [inSpace, Text.segments_cons, none, hs, hc]
  | cons d space ih =>
    cases name with
    | nil =>
      obtain ⟨s, more, hs⟩ := List.exists_cons_of_ne_nil (Text.segments_ne_nil space)
      by_cases hd : d = '.' <;> simp [inSpace, Text.segments_cons, none, hs, hd]
    | cons c name =>
      obtain ⟨s, more, hs⟩ := List.exists_cons_of_ne_nil (Text.segments_ne_nil space)
      obtain ⟨t, others, ht⟩ := List.exists_cons_of_ne_nil (Text.segments_ne_nil name)
      have := ih name
      rw [hs, ht] at this
      by_cases hd : d = '.' <;> by_cases hc : c = '.' <;>
        simp_all [inSpace, Text.segments_cons, List.cons_prefix_cons, and_assoc]
      all_goals grind

/-- The text of an interest, for readers of a log. -/
def text : Interest → String
  | .all => "All"
  | .anyOf names => "Names([" ++ ", ".intercalate (names.map Text.quoted) ++ "])"
  | .within space => "Namespace(" ++ Text.quoted space ++ ")"

end Interest

end DomainEvents
