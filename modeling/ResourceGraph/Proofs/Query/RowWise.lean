import ResourceGraph.Proofs.Fallible
import ResourceGraph.Query.Eval

/-!
# Row-wise queries

A query is row-wise if it takes a list apart element by element: projections, filters and flattening
of the list itself, one after the other. What is done to an element is free. The result for a list
that is joined from parts is the results for the parts joined, and it fails exactly if one of these
does. Which error is reported is not said: a later part may fail earlier in the query.
-/
namespace ResourceGraph.Query

/-- Projections, filters and flattening, from the current value on. -/
inductive RowWise : Expr → Prop where
  | current : RowWise .current
  | project {source each : Expr} : RowWise source → RowWise (.project source each)
  | filter {source test each : Expr} : RowWise source → RowWise (.filter source test each)
  | flatten {source : Expr} : RowWise source → RowWise (.flatten source)
  | chain {first next : Expr} : RowWise first → RowWise next → RowWise (.chain first next)

def isRowWise : Expr → Bool
  | .current => true
  | .project source _ => isRowWise source
  | .filter source _ _ => isRowWise source
  | .flatten source => isRowWise source
  | .chain first next => isRowWise first && isRowWise next
  | _ => false

theorem isRowWise_iff {e : Expr} : isRowWise e = true ↔ RowWise e := by
  constructor
  · intro h
    induction e using isRowWise.induct with
    | case1 => exact .current
    | case2 source each ih => exact .project (ih h)
    | case3 source test each ih => exact .filter (ih h)
    | case4 source ih => exact .flatten (ih h)
    | case5 first next ihFirst ihNext =>
      rw [isRowWise, Bool.and_eq_true] at h
      exact .chain (ihFirst h.1) (ihNext h.2)
    | case6 e => simp [isRowWise] at h
  · intro h
    induction h with
    | current => rfl
    | project _ ih => exact ih
    | filter _ ih => exact ih
    | flatten _ ih => exact ih
    | chain _ _ ihFirst ihNext => simp [isRowWise, ihFirst, ihNext]

instance : DecidablePred RowWise := fun _ => decidable_of_iff _ isRowWise_iff

/-! ## Functions on lists that go part by part -/

/-- The result for a joined list is the results for its parts joined, and there is one exactly if
there is one for each part. -/
structure Homomorphic (f : List Json → Except QueryError (List Json)) : Prop where
  nil : f [] = .ok []
  append (xs ys values : List Json) : f (xs ++ ys) = .ok values ↔
    ∃ left right, f xs = .ok left ∧ f ys = .ok right ∧ values = left ++ right

namespace Homomorphic

variable {f g : List Json → Except QueryError (List Json)}

/-- A function that goes element by element goes part by part. -/
theorem of_cons (row : Json → Except QueryError (List Json)) (hnil : f [] = .ok [])
    (hcons : ∀ x xs, f (x :: xs) = do return (← row x) ++ (← f xs)) : Homomorphic f := by
  refine ⟨hnil, fun xs ys => ?_⟩
  induction xs with
  | nil =>
    intro values
    simp [hnil]
  | cons x xs ih =>
    intro values
    rw [List.cons_append, hcons, hcons]
    simp only [bind_eq_ok_iff, ih, pure, Except.pure, Except.ok.injEq]
    constructor
    · intro h
      obtain ⟨first, hfirst, _, ⟨left, right, hleft, hright, rfl⟩, rfl⟩ := h
      exact ⟨first ++ left, right, ⟨first, hfirst, left, hleft, rfl⟩, hright, by simp⟩
    · intro h
      obtain ⟨_, right, ⟨first, hfirst, left, hleft, rfl⟩, hright, rfl⟩ := h
      exact ⟨first, hfirst, left ++ right, ⟨left, right, hleft, hright, rfl⟩, by simp⟩

/-- One after the other. -/
theorem comp (hf : Homomorphic f) (hg : Homomorphic g) : Homomorphic fun xs => f xs >>= g := by
  refine ⟨?_, fun xs ys values => ?_⟩
  · rw [hf.nil]
    exact hg.nil
  · simp only [bind_eq_ok_iff, hf.append]
    constructor
    · intro h
      obtain ⟨_, ⟨left, right, hleft, hright, rfl⟩, hvalues⟩ := h
      obtain ⟨left', right', hleft', hright', rfl⟩ := (hg.append left right values).1 hvalues
      exact ⟨left', right', ⟨left, hleft, hleft'⟩, ⟨right, hright, hright'⟩, rfl⟩
    · intro h
      obtain ⟨left', right', ⟨left, hleft, hleft'⟩, ⟨right, hright, hright'⟩, rfl⟩ := h
      exact ⟨left ++ right, ⟨left, right, hleft, hright, rfl⟩,
        (hg.append left right _).2 ⟨left', right', hleft', hright', rfl⟩⟩

/-- Any number of parts. -/
theorem flatten_eq_ok_iff (hf : Homomorphic f) (parts : List (List Json)) (values : List Json) :
    f parts.flatten = .ok values ↔
      ∃ results, List.Forall₂ (fun part result => f part = .ok result) parts results ∧
        values = results.flatten := by
  induction parts generalizing values with
  | nil => simp [hf.nil, eq_comm]
  | cons part parts ih =>
    rw [List.flatten_cons, hf.append]
    simp only [ih]
    constructor
    · intro h
      obtain ⟨left, _, hleft, ⟨results, hresults, rfl⟩, rfl⟩ := h
      exact ⟨left :: results, .cons hleft hresults, rfl⟩
    · intro h
      obtain ⟨_, hresults, rfl⟩ := h
      cases hresults with
      | cons hleft hresults => exact ⟨_, _, hleft, ⟨_, hresults, rfl⟩, rfl⟩

end Homomorphic

/-! ## The rows of a query -/

theorem homomorphic_ok : Homomorphic .ok :=
  .of_cons (fun x => .ok [x]) rfl fun _ _ => rfl

theorem homomorphic_flattenOnce : Homomorphic fun items => .ok (flattenOnce items) :=
  .of_cons (fun x => .ok (flattenOnce [x])) rfl fun x xs => by
    simp [flattenOnce, bind, Except.bind, pure, Except.pure]

theorem homomorphic_filterItems (test each : Body) : Homomorphic (filterItems test each) := by
  refine .of_cons (fun x => filterItems test each [x]) rfl fun x xs => ?_
  simp only [filterItems]
  cases test x with
  | error fault => rfl
  | ok passed =>
    by_cases htruthy : truthy passed = true
    · cases each x with
      | error fault => simp [htruthy, bind, Except.bind]
      | ok value =>
        cases filterItems test each xs with
        | error fault => simp [htruthy, bind, Except.bind, pure, Except.pure]
        | ok values =>
          by_cases hnull : value.isNull = true <;>
            simp [htruthy, hnull, bind, Except.bind, pure, Except.pure]
    · cases filterItems test each xs <;>
        simp [htruthy, bind, Except.bind, pure, Except.pure]

/-- A projection is a filter that every element passes. -/
theorem projectItems_eq_filterItems (each : Body) (items : List Json) :
    projectItems each items = filterItems (fun _ => .ok (.bool true)) each items := by
  induction items with
  | nil => rfl
  | cons item items ih =>
    simp only [projectItems, filterItems, ih]
    rfl

theorem homomorphic_projectItems (each : Body) : Homomorphic (projectItems each) := by
  rw [funext (projectItems_eq_filterItems each)]
  exact homomorphic_filterItems _ each

/-- On a list, a row-wise query gives a list, part by part. -/
theorem RowWise.exists_homomorphic {e : Expr} (h : RowWise e) :
    ∃ rows, Homomorphic rows ∧ ∀ items, eval e (.arr items) = (rows items).map .arr := by
  induction h with
  | current => exact ⟨.ok, homomorphic_ok, fun items => rfl⟩
  | @project source each _ ih =>
    obtain ⟨rows, hrows, heval⟩ := ih
    refine ⟨_, hrows.comp (homomorphic_projectItems (eval each)), fun items => ?_⟩
    rw [eval, heval]
    cases rows items <;> rfl
  | @filter source test each _ ih =>
    obtain ⟨rows, hrows, heval⟩ := ih
    refine ⟨_, hrows.comp (homomorphic_filterItems (eval test) (eval each)), fun items => ?_⟩
    rw [eval, heval]
    cases rows items <;> rfl
  | @flatten source _ ih =>
    obtain ⟨rows, hrows, heval⟩ := ih
    refine ⟨_, hrows.comp homomorphic_flattenOnce, fun items => ?_⟩
    rw [eval, heval]
    cases rows items <;> rfl
  | @chain first next _ _ ihFirst ihNext =>
    obtain ⟨rows, hrows, heval⟩ := ihFirst
    obtain ⟨rows', hrows', heval'⟩ := ihNext
    refine ⟨_, hrows.comp hrows', fun items => ?_⟩
    rw [eval, heval]
    cases rows items with
    | error fault => rfl
    | ok values => exact heval' values

end ResourceGraph.Query
