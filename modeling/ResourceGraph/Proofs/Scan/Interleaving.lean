import Mathlib.Data.List.Perm.Basic
import ResourceGraph.Proofs.Scan.Program

/-!
# Interleaved programs

Several programs that run at once on one store. At any time one of those that are not done makes its
next request; nothing is said about which. Each program then sees a path through its own requests,
and the store is as if the requests of all of them had been made in the order of the trace.
-/
namespace ResourceGraph

/-- A write of records as they were stamped, and what the store answered. -/
structure Write where
  key : Key
  records : List Record
  answer : Except StoreError Unit

/-- A request that has been answered. -/
inductive Event where
  | read (key : Key) (answer : Except StoreError (List Record))
  | call (context : ScanContext) (c : Call)
  | write (w : Write)

/-- The records that were stored under the key. -/
def Write.storedUnder? (key : Key) (w : Write) : Option (List Record) :=
  if w.key = key ∧ w.answer.isOk then some w.records else none

namespace Event

def call? : Event → Option (ScanContext × Call)
  | .call context c => some (context, c)
  | _ => none

def write? : Event → Option Write
  | .write w => some w
  | _ => none

def storedUnder? (key : Key) (event : Event) : Option (List Record) :=
  event.write?.bind (Write.storedUnder? key)

theorem mem_filterMap_call? {path : List Event} {context : ScanContext} {c : Call} :
    (context, c) ∈ path.filterMap call? ↔ .call context c ∈ path := by
  rw [List.mem_filterMap]
  constructor
  · rintro ⟨event, hevent, heq⟩
    cases event with
    | call _ _ =>
      cases heq
      exact hevent
    | read _ _ => cases heq
    | write _ => cases heq
  · intro h
    exact ⟨_, h, rfl⟩

theorem mem_filterMap_write? {path : List Event} {w : Write} :
    w ∈ path.filterMap write? ↔ .write w ∈ path := by
  rw [List.mem_filterMap]
  constructor
  · rintro ⟨event, hevent, heq⟩
    cases event with
    | write _ =>
      cases heq
      exact hevent
    | read _ _ => cases heq
    | call _ _ => cases heq
  · intro h
    exact ⟨_, h, rfl⟩

theorem filterMap_storedUnder? {key : Key} {path : List Event} :
    path.filterMap (storedUnder? key) =
      (path.filterMap write?).filterMap (Write.storedUnder? key) := by
  rw [List.filterMap_filterMap]
  rfl

end Event

variable {α σ : Type}

/-- A program goes on after the answer. The clock stamps the records that are written. -/
inductive Program.Goes (clock : Clock) : Program α → Event → Program α → Prop
  | read {key : Key} {next : Except StoreError (List Record) → Program α}
      {answer : Except StoreError (List Record)} :
      Goes clock (.read key next) (.read key answer) (next answer)
  | call {context : ScanContext} {parameters : Option Fields}
      {next : Attempted (List Json) → Program α} {attempted : Attempted (List Json)} :
      Goes clock (.call context parameters next) (.call context ⟨parameters, attempted⟩)
        (next attempted)
  | write {key : Key} {records stamped : List Record} {next : Except StoreError Unit → Program α}
      {answer : Except StoreError Unit}
      (hstamped : stamped.map clock.forget = records.map clock.forget) :
      Goes clock (.write key records next) (.write ⟨key, stamped, answer⟩) (next answer)

/-- The events of a program from here until it is done. -/
inductive Program.Follows (clock : Clock) : Program α → List Event → α → Prop
  | done {value : α} : Follows clock (.done value) [] value
  | next {program program' : Program α} {event : Event} {path : List Event} {value : α}
      (hgoes : program.Goes clock event program') (hpath : Follows clock program' path value) :
      Follows clock program (event :: path) value

/-- The store and the scanners give the answer. The scanners may remember what they were asked. -/
inductive Pipeline.Answers (p : Pipeline (StateM σ)) : σ → Store → Event → σ → Store → Prop
  | read {st : σ} {s : Store} {key : Key} :
      Answers p st s (.read key ((p.backend.source s).read key)) st s
  | call {st st' : σ} {s : Store} {context : ScanContext} {parameters : Option Fields}
      {attempted : Attempted (List Json)}
      (h : (p.answer context parameters).run st = (attempted, st')) :
      Answers p st s (.call context ⟨parameters, attempted⟩) st' s
  | write {st : σ} {s s' : Store} {key : Key} {records : List Record}
      (h : p.backend.write s key records = .ok s') :
      Answers p st s (.write ⟨key, records, .ok ()⟩) st s'
  | refuse {st : σ} {s : Store} {key : Key} {records : List Record} {fault : StoreError}
      (h : p.backend.write s key records = .error fault) :
      Answers p st s (.write ⟨key, records, .error fault⟩) st s

/-- Events one after the other, each answered in turn. -/
inductive Pipeline.Replays (p : Pipeline (StateM σ)) : σ → Store → List Event → σ → Store → Prop
  | nil {st : σ} {s : Store} : Replays p st s [] st s
  | cons {st st₁ st' : σ} {s s₁ s' : Store} {event : Event} {trace : List Event}
      (hevent : p.Answers st s event st₁ s₁) (htrace : Replays p st₁ s₁ trace st' s') :
      Replays p st s (event :: trace) st' s'

/-- Programs that run at once until all are done. Each event is that of the program at a position,
any one that has a request to make. -/
inductive Pipeline.Interleaved (p : Pipeline (StateM σ)) (clock : Clock) :
    σ → Store → List (Program α) → List (Nat × Event) → σ → Store → List α → Prop
  | finished {st : σ} {s : Store} {programs : List (Program α)} {values : List α}
      (hdone : programs = values.map .done) : Interleaved p clock st s programs [] st s values
  | step {st st₁ st' : σ} {s s₁ s' : Store} {programs : List (Program α)}
      {program program' : Program α} {k : Nat} {event : Event} {trace : List (Nat × Event)}
      {values : List α} (hk : programs[k]? = some program)
      (hgoes : program.Goes clock event program') (hanswers : p.Answers st s event st₁ s₁)
      (hrest : Interleaved p clock st₁ s₁ (programs.set k program') trace st' s' values) :
      Interleaved p clock st s programs ((k, event) :: trace) st' s' values

/-! ## The events of one program -/

/-- The events of the program at a position. -/
def eventsOf (k : Nat) (trace : List (Nat × Event)) : List Event :=
  trace.filterMap fun entry => if entry.1 = k then some entry.2 else none

section Events

variable {k n : Nat} {event : Event} {trace : List (Nat × Event)}

theorem eventsOf_cons : eventsOf k ((n, event) :: trace) =
    if n = k then event :: eventsOf k trace else eventsOf k trace := by
  by_cases h : n = k
  · simp [eventsOf, h]
  · simp [eventsOf, h]

theorem mem_eventsOf_iff : event ∈ eventsOf k trace ↔ (k, event) ∈ trace := by
  simp [eventsOf, List.mem_filterMap]

/-- One more event is one more of its position. -/
theorem flatMap_eventsOf_cons {i : Nat} (h : i < n) :
    ((List.range n).flatMap fun k => eventsOf k ((i, event) :: trace)).Perm
      (event :: (List.range n).flatMap fun k => eventsOf k trace) := by
  have hbelow : ∀ n ≤ i, ((List.range n).flatMap fun k => eventsOf k ((i, event) :: trace)) =
      (List.range n).flatMap fun k => eventsOf k trace := by
    intro n hn
    refine List.flatMap_congr fun k hk => ?_
    have hne : i ≠ k := by
      have hlt := List.mem_range.1 hk
      omega
    rw [eventsOf_cons, if_neg hne]
  induction n with
  | zero => omega
  | succ n ih =>
    rw [List.range_succ, List.flatMap_append, List.flatMap_append, List.flatMap_singleton,
      List.flatMap_singleton, eventsOf_cons]
    by_cases hi : i = n
    · rw [if_pos hi, hbelow n (Nat.le_of_eq hi.symm)]
      exact List.perm_middle
    · rw [if_neg hi]
      exact (ih (by omega)).append_right _

/-- The events of a trace are those of each position. -/
theorem perm_flatMap_eventsOf (h : ∀ entry ∈ trace, entry.1 < n) :
    (trace.map (·.2)).Perm ((List.range n).flatMap fun k => eventsOf k trace) := by
  induction trace with
  | nil => simp [eventsOf]
  | cons entry trace ih =>
    obtain ⟨hentry, hrest⟩ := List.forall_mem_cons.1 h
    exact ((ih hrest).cons entry.2).trans (flatMap_eventsOf_cons hentry).symm

/-- What only one program does stands in its events in the same order. -/
theorem filterMap_eq_of_only {β : Type} {f : Event → Option β}
    (h : ∀ entry ∈ trace, entry.1 ≠ k → f entry.2 = none) :
    (trace.map (·.2)).filterMap f = (eventsOf k trace).filterMap f := by
  induction trace with
  | nil => rfl
  | cons entry trace ih =>
    obtain ⟨i, event⟩ := entry
    obtain ⟨hentry, hrest⟩ := List.forall_mem_cons.1 h
    rw [List.map_cons, List.filterMap_cons, ih hrest, eventsOf_cons]
    by_cases hi : i = k
    · simp [hi, List.filterMap_cons]
    · simp [hi, hentry hi]

end Events

namespace Pipeline.Interleaved

variable {p : Pipeline (StateM σ)} {clock : Clock} {st st' st₁ : σ} {s s' s₁ : Store}
  {programs : List (Program α)} {program : Program α} {trace : List (Nat × Event)}
  {path : List Event} {values : List α} {value : α} {k : Nat}

theorem length_eq (h : p.Interleaved clock st s programs trace st' s' values) :
    values.length = programs.length := by
  induction h with
  | finished hdone => rw [hdone, List.length_map]
  | step _ _ _ _ ih => rw [ih, List.length_set]

theorem lt_length (h : p.Interleaved clock st s programs trace st' s' values) :
    ∀ entry ∈ trace, entry.1 < programs.length := by
  induction h with
  | finished _ => simp
  | step hk _ _ _ ih =>
    rw [List.length_set] at ih
    exact List.forall_mem_cons.2 ⟨(List.getElem?_eq_some_iff.1 hk).1, ih⟩

theorem replays (h : p.Interleaved clock st s programs trace st' s' values) :
    p.Replays st s (trace.map (·.2)) st' s' := by
  induction h with
  | finished _ => exact .nil
  | step _ _ hanswers _ ih => exact .cons hanswers ih

/-- Each program goes its own way, whatever the others do in between. -/
theorem follows (h : p.Interleaved clock st s programs trace st' s' values)
    (hk : programs[k]? = some program) :
    ∃ value, values[k]? = some value ∧ program.Follows clock (eventsOf k trace) value := by
  induction h generalizing program with
  | @finished st s programs values hdone =>
    subst hdone
    rw [List.getElem?_map, Option.map_eq_some_iff] at hk
    obtain ⟨value, hvalue, rfl⟩ := hk
    exact ⟨value, hvalue, .done⟩
  | @step st st₁ st' s s₁ s' programs program₀ program' i event trace values hi hgoes _ _ ih =>
    rw [eventsOf_cons]
    -- either it is the turn of this program, or it stays where it is
    by_cases hik : i = k
    · subst hik
      obtain rfl : program₀ = program := Option.some.inj (hi.symm.trans hk)
      have hlt := (List.getElem?_eq_some_iff.1 hi).1
      obtain ⟨value, hvalue, hpath⟩ := ih (List.getElem?_set_self hlt)
      rw [if_pos rfl]
      exact ⟨value, hvalue, .next hgoes hpath⟩
    · rw [if_neg hik]
      exact ih (by rw [List.getElem?_set_ne hik]; exact hk)

/-! ## One program after the other -/

/-- A program that is done does not take part. -/
theorem cons_done (h : p.Interleaved clock st s programs trace st' s' values) :
    p.Interleaved clock st s (.done value :: programs)
      (trace.map fun entry => (entry.1 + 1, entry.2)) st' s' (value :: values) := by
  induction h with
  | finished hdone => exact .finished (by rw [hdone, List.map_cons])
  | step hk hgoes hanswers _ ih =>
    refine .step ?_ hgoes hanswers ih
    rw [List.getElem?_cons_succ]
    exact hk

/-- The first program runs to its end, and then the others. -/
theorem of_follows (hpath : program.Follows clock path value)
    (hreplays : p.Replays st s path st₁ s₁)
    (h : p.Interleaved clock st₁ s₁ (.done value :: programs) trace st' s' values) :
    p.Interleaved clock st s (program :: programs) (path.map (Prod.mk 0) ++ trace) st' s'
      values := by
  induction hpath generalizing st s with
  | done =>
    cases hreplays
    exact h
  | next hgoes _ ih =>
    cases hreplays with
    | cons hevent hrest => exact .step rfl hgoes hevent (ih hrest h)

end Pipeline.Interleaved

/-! ## The store -/

namespace Backend

variable {b : Backend} {s s' : Store} {key : Key} {records : List Record}

/-- Whether writes under a key go through hangs on the key alone. -/
def admits (b : Backend) (key : Key) : Except StoreError Unit :=
  guarded (b.refusesWrite key) ()

theorem write_eq_ok_iff :
    b.write s key records = .ok s' ↔ b.admits key = .ok () ∧ s' = s.write key records := by
  unfold write admits guarded
  cases b.refusesWrite key with
  | none => simp [eq_comm]
  | some fault => simp

theorem write_eq_error_iff {fault : StoreError} :
    b.write s key records = .error fault ↔ b.admits key = .error fault := by
  unfold write admits guarded
  cases b.refusesWrite key with
  | none => simp
  | some e => simp

end Backend

namespace Pipeline

variable {p : Pipeline (StateM σ)} {st st' : σ} {s s' : Store} {event : Event}
  {trace : List Event} {key : Key}

theorem Answers.write_answer {w : Write} (h : p.Answers st s (.write w) st' s') :
    w.answer = p.backend.admits w.key := by
  cases h with
  | write h => exact (Backend.write_eq_ok_iff.1 h).1.symm
  | refuse h => exact (Backend.write_eq_error_iff.1 h).symm

/-- An event appends what it stores, and nothing else changes. -/
theorem Answers.read_eq (h : p.Answers st s event st' s') :
    s'.read key = s.read key ++ (event.storedUnder? key).getD [] := by
  cases h with
  | read => simp [Event.storedUnder?, Event.write?]
  | call _ => simp [Event.storedUnder?, Event.write?]
  | @write _ _ written records h =>
    rw [(Backend.write_eq_ok_iff.1 h).2, Store.read_write]
    by_cases hkey : key = written
    · simp [Event.storedUnder?, Event.write?, Write.storedUnder?, hkey, Except.isOk, Except.toBool]
    · simp [Event.storedUnder?, Event.write?, Write.storedUnder?, hkey, Ne.symm hkey]
  | refuse _ =>
    simp [Event.storedUnder?, Event.write?, Write.storedUnder?, Except.isOk, Except.toBool]

namespace Replays

/-- A trace appends all that it stores, in order. -/
theorem read_eq (h : p.Replays st s trace st' s') :
    s'.read key = s.read key ++ (trace.filterMap (Event.storedUnder? key)).flatten := by
  induction h with
  | nil => simp
  | @cons st st₁ st' s s₁ s' event trace hevent _ ih =>
    rw [ih, hevent.read_eq, List.filterMap_cons]
    cases event.storedUnder? key with
    | none => simp
    | some records => simp

theorem append {st₁ : σ} {s₁ : Store} {trace' : List Event} (h : p.Replays st s trace st₁ s₁)
    (h' : p.Replays st₁ s₁ trace' st' s') : p.Replays st s (trace ++ trace') st' s' := by
  induction h with
  | nil => exact h'
  | cons hevent _ ih => exact .cons hevent (ih h')

theorem write_answer (h : p.Replays st s trace st' s') :
    ∀ w, .write w ∈ trace → w.answer = p.backend.admits w.key := by
  induction h with
  | nil => simp
  | cons hevent _ ih =>
    intro w hw
    rcases List.mem_cons.1 hw with heq | hw
    · subst heq
      exact hevent.write_answer
    · exact ih w hw

/-- The answers to calls are those of the scanners. -/
theorem call_answer (h : p.Replays st s trace st' s') :
    ∀ context c, .call context c ∈ trace →
      ∃ before after, (p.answer context c.parameters).run before = (c.attempted, after) := by
  induction h with
  | nil => simp
  | cons hevent _ ih =>
    intro context c hc
    rcases List.mem_cons.1 hc with heq | hc
    · subst heq
      cases hevent with
      | call hanswer => exact ⟨_, _, hanswer⟩
    · exact ih context c hc

/-- What nobody writes reads as it did before. -/
theorem read_answer (h : p.Replays st s trace st' s')
    (hkey : ∀ w, .write w ∈ trace → w.key ≠ key) {answer : Except StoreError (List Record)}
    (hread : .read key answer ∈ trace) : answer = (p.backend.source s).read key := by
  induction h with
  | nil => simp at hread
  | @cons st st₁ st' s s₁ s' event trace hevent _ ih =>
    rcases List.mem_cons.1 hread with heq | hread
    · subst heq
      cases hevent
      rfl
    · have hnone : event.storedUnder? key = none := by
        cases event with
        | write w =>
          simp [Event.storedUnder?, Event.write?, Write.storedUnder?, hkey w List.mem_cons_self]
        | read _ _ => rfl
        | call _ _ => rfl
      have hsame : s₁.read key = s.read key := by
        rw [hevent.read_eq, hnone]
        simp
      rw [ih (fun w hw => hkey w (List.mem_cons_of_mem _ hw)) hread]
      exact congrArg (Backend.guarded (p.backend.refusesScoped key)) hsame

end Replays

end Pipeline

/-- Executed alone, a program follows a path that is answered event by event. -/
theorem Program.exists_path_of_exec {p : Pipeline (StateM σ)} (clock : Clock)
    {program : Program α} {st st' : σ} {s s' : Store} {value : α}
    (h : (program.exec p.backend p.answer s).run st = ((s', value), st')) :
    ∃ path, program.Follows clock path value ∧ p.Replays st s path st' s' := by
  induction program generalizing st s with
  | done v =>
    cases h
    exact ⟨[], .done, .nil⟩
  | read key next ih =>
    obtain ⟨path, hpath, hreplays⟩ := ih _ h
    exact ⟨_, .next .read hpath, .cons .read hreplays⟩
  | call context parameters next ih =>
    obtain ⟨path, hpath, hreplays⟩ := ih _ h
    exact ⟨_, .next .call hpath, .cons (.call rfl) hreplays⟩
  | write key records next ih =>
    rw [exec] at h
    cases hwrite : p.backend.write s key records with
    | ok s₁ =>
      rw [hwrite] at h
      obtain ⟨path, hpath, hreplays⟩ := ih _ h
      exact ⟨_, .next (.write rfl) hpath, .cons (.write hwrite) hreplays⟩
    | error fault =>
      rw [hwrite] at h
      obtain ⟨path, hpath, hreplays⟩ := ih _ h
      exact ⟨_, .next (.write rfl) hpath, .cons (.refuse hwrite) hreplays⟩

end ResourceGraph
