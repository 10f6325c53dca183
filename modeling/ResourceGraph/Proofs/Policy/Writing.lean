import Mathlib.Data.List.Forall2
import Mathlib.Data.Option.Basic
import Mathlib.Logic.Relation
import ResourceGraph.Policy.Document
import ResourceGraph.Proofs.Fallible
import ResourceGraph.Proofs.Text.Percent

/-!
# Ways to write a policy document

An object, the text that writes it and every percent-encoding of that text are one document. Where a
list is expected, a statement or a text alone says the same as the list of it. The statements read
are those that the document lists, in order, and each keeps how it was written. Nothing is said
about text that does not start with a brace, other than encodings of text that does.
-/
namespace ResourceGraph

open Document (Parts optional? parts? text?)

namespace Json

theorem exists_fields_of_scanValue? {n depth : Nat} {cs rest : List Char} {d : Json}
    (h : scanValue? n depth ('{' :: cs) = some (d, rest)) : ∃ fields, d = .obj fields := by
  cases n with
  | zero => simp [scanValue?] at h
  | succ n =>
    have hspace : skipSpace ('{' :: cs) = '{' :: cs := rfl
    rw [scanValue?, hspace] at h
    simp only at h
    split at h
    · cases h
    · split at h
      · cases h
        exact ⟨_, rfl⟩
      · obtain ⟨⟨fields, _⟩, -, heq⟩ := Option.map_eq_some_iff.1 h
        cases heq
        exact ⟨fields, rfl⟩

/-- A text that starts with a brace writes an object, if it writes a value. -/
theorem exists_fields_of_ofText? {text : String} {d : Json}
    (hbrace : text.toList.head? = some '{') (h : ofText? text = some d) :
    ∃ fields, d = .obj fields := by
  obtain ⟨cs, hcs⟩ : ∃ cs, text.toList = '{' :: cs := List.head?_eq_some_iff.1 hbrace
  rw [ofText?, ofChars?, hcs] at h
  obtain ⟨⟨value, rest⟩, hscan, hvalue⟩ := Option.bind_eq_some_iff.1 h
  have hd : value = d := by
    simp only at hvalue
    split at hvalue
    · exact Option.some.inj hvalue
    · cases hvalue
  exact hd ▸ exists_fields_of_scanValue? hscan

end Json

/-! ## One part of a document -/

/-- The second document has something else in one place, as a structure with fields at places and
with names is written. -/
inductive AtPart (i : Nat) (name : String) (R : Json → Json → Prop) : Json → Json → Prop where
  | named {before after : Fields} {v w : Json} (h : R v w) :
    AtPart i name R (.obj (before ++ (name, v) :: after)) (.obj (before ++ (name, w) :: after))
  | placed {before after : List Json} {v w : Json} (hi : before.length = i) (h : R v w) :
    AtPart i name R (.arr (before ++ v :: after)) (.arr (before ++ w :: after))

/-- The same fields are found, but for one. -/
structure AgreeBut (i : Nat) (name : String) (R : Json → Json → Prop) (p q : Parts Json) :
    Prop where
  other : ∀ j n, j ≠ i → n ≠ name → q.find j n = p.find j n
  here : q.find i name = p.find i name ∨
    ∃ v w, p.find i name = some v ∧ q.find i name = some w ∧ R v w

section Related

variable {α β : Type} {R : α → α → Prop} {x y : Option α}

theorem bind_eq_of_rel {f : α → Option β} (h : Option.Rel R x y) (hf : ∀ p q, R p q → f q = f p) :
    y.bind f = x.bind f := by
  cases h with
  | none => rfl
  | some hpq => exact hf _ _ hpq

theorem rel_map_of_rel {S : β → β → Prop} {f : α → β} (h : Option.Rel R x y)
    (hf : ∀ p q, R p q → S (f p) (f q)) : Option.Rel S (x.map f) (y.map f) := by
  cases h with
  | none => exact .none
  | some hpq => exact .some (hf _ _ hpq)

end Related

section AtPart

variable {i size : Nat} {name : String} {R : Json → Json → Prop} {d d' : Json}

theorem parts?_arr {items : List Json} : parts? size (.arr items) =
    if size < items.length then none else some ⟨fun i _ => items[i]?⟩ := by
  have hsize : parts? size (.arr items) = if (true && decide (size < items.length)) = true
      then none else some ⟨fun i _ => items[i]?⟩ := rfl
  simpa using hsize

theorem AtPart.rel_parts? (h : AtPart i name R d d') :
    Option.Rel (AgreeBut i name R) (parts? size d) (parts? size d') := by
  cases h with
  | @named before after v w hR =>
    refine .some ⟨fun j n _ hn => ?_, ?_⟩
    · have hne : (n == name) = false := by simpa using hn
      simp [List.lookup_append, List.lookup_cons, hne]
    · cases hbefore : before.lookup name with
      | some x => exact .inl (by simp [List.lookup_append, hbefore])
      | none => exact .inr ⟨v, w, by simp [List.lookup_append, hbefore],
          by simp [List.lookup_append, hbefore], hR⟩
  | @placed before after v w hi hR =>
    have hlength : (before ++ w :: after).length = (before ++ v :: after).length := by simp
    rw [parts?_arr, parts?_arr, hlength]
    split
    · exact .none
    · refine .some ⟨fun j n hj _ => ?_, .inr ⟨v, w, ?_, ?_, hR⟩⟩
      · change (before ++ w :: after)[j]? = (before ++ v :: after)[j]?
        rw [List.getElem?_append, List.getElem?_append]
        split
        · rfl
        · obtain ⟨k, hk⟩ : ∃ k, j - before.length = k + 1 := ⟨j - before.length - 1, by omega⟩
          rw [hk, List.getElem?_cons_succ, List.getElem?_cons_succ]
      · simp [← hi]
      · simp [← hi]

variable {β : Type} {p q : Parts Json} {read : Json → Option β}

theorem AgreeBut.optional_other (h : AgreeBut i name R p q) {j : Nat} {n : String} (hj : j ≠ i)
    (hn : n ≠ name) : q.optional j n read = p.optional j n read := by
  rw [Parts.optional, Parts.optional, Parts.defaulted, Parts.defaulted, h.other j n hj hn]

/-- What is found in the place may differ, if it reads alike. -/
theorem AgreeBut.optional_here (h : AgreeBut i name R p q)
    (hR : ∀ v w, R v w → optional? read w = optional? read v) :
    q.optional i name read = p.optional i name read := by
  rw [Parts.optional, Parts.optional, Parts.defaulted, Parts.defaulted]
  rcases h.here with heq | ⟨v, w, hv, hw, hvw⟩
  · rw [heq]
  · rw [hv, hw]
    exact hR v w hvw

end AtPart

namespace Statement

/-! ## What statements say -/

/-- Effect, actions and resources: all but how the statement was written. -/
def contents (s : Statement) : Option String × List String × List String :=
  (s.effect, s.actions, s.resources)

/-- In place of a text stands the list of it alone. -/
inductive ListsText : Json → Json → Prop where
  | text (s : String) : ListsText (.str s) (.arr [.str s])

/-- A statement is written with a list of one action, or of one resource, in place of a text. -/
def Respells (s s' : Json) : Prop :=
  AtPart 1 "Action" ListsText s s' ∨ AtPart 2 "Resource" ListsText s s'

/-- What a document lists is written in another way: a statement that stands alone as a list, or one
of the statements with a list in it. -/
inductive RespellsListed : Json → Json → Prop where
  | listed (fields : Fields) : RespellsListed (.obj fields) (.arr [.obj fields])
  | alone {fields fields' : Fields} (h : Respells (.obj fields) (.obj fields')) :
    RespellsListed (.obj fields) (.obj fields')
  | member {before after : List Json} {s s' : Json} (h : Respells s s') :
    RespellsListed (.arr (before ++ s :: after)) (.arr (before ++ s' :: after))

/-- A document with a list in one place in place of its only element. -/
def RespellsDocument (d d' : Json) : Prop := AtPart 0 "Statement" RespellsListed d d'

/-- Two writings of a statement that say the same. -/
def SameContents (s s' : Json) : Prop := (read? s').map contents = (read? s).map contents

/-- The fields of a statement, without the statement itself. -/
def contentsOf? (parts : Parts Json) : Option (Option String × List String × List String) := do
  let effect ← parts.optional 0 "Effect" text?
  let actions ← parts.optional 1 "Action" (oneOrMany? text?)
  let resources ← parts.optional 2 "Resource" (oneOrMany? text?)
  return (effect, actions.getD [], resources.getD [])

section Reading

variable {d d' s s' : Json} {v w : Json}

theorem map_contents_read? : (read? d).map contents = (parts? 3 d).bind contentsOf? := by
  simp only [read?, Option.bind_eq_bind, Option.pure_def, Option.map_bind, Function.comp_def,
    Option.map_some, contents]
  rfl

theorem optional?_of_listsText (h : ListsText v w) :
    optional? (oneOrMany? text?) w = optional? (oneOrMany? text?) v := by
  cases h
  rfl

theorem contentsOf?_action {p q : Parts Json} (h : AgreeBut 1 "Action" ListsText p q) :
    contentsOf? q = contentsOf? p := by
  rw [contentsOf?, contentsOf?, h.optional_other (by decide) (by decide),
    h.optional_here fun _ _ => optional?_of_listsText, h.optional_other (by decide) (by decide)]

theorem contentsOf?_resource {p q : Parts Json} (h : AgreeBut 2 "Resource" ListsText p q) :
    contentsOf? q = contentsOf? p := by
  rw [contentsOf?, contentsOf?, h.optional_other (by decide) (by decide),
    h.optional_other (by decide) (by decide), h.optional_here fun _ _ => optional?_of_listsText]

theorem sameContents_of_respells (h : Respells s s') : SameContents s s' := by
  rw [SameContents, map_contents_read?, map_contents_read?]
  rcases h with h | h
  · exact bind_eq_of_rel h.rel_parts? fun _ _ => contentsOf?_action
  · exact bind_eq_of_rel h.rel_parts? fun _ _ => contentsOf?_resource

end Reading

/-! ## What documents list -/

/-- The part of a document that lists its statements. -/
def statementPart? : Json → Option Json
  | .obj fields => Fields.get? fields "Statement"
  | .arr items => items.head?
  | _ => none

/-- A list lists its elements, nothing or null lists nothing, and all else lists itself. -/
def listedIn : Option Json → List Json
  | none => []
  | some .null => []
  | some (.arr items) => items
  | some single => [single]

section Listing

variable {d d' v w : Json} {ls ls' : List Json} {ss : List Statement} {policy : String}

theorem mapM_some (items : List Json) : items.mapM (some : Json → Option Json) = some items := by
  induction items with
  | nil => rfl
  | cons item items ih =>
    rw [List.mapM_cons, ih]
    rfl

/-- Every value but null is one statement or a list of them. -/
theorem optional?_oneOrMany? (v : Json) :
    (optional? (oneOrMany? some) v).map (·.getD []) = some (listedIn (some v)) := by
  cases v with
  | arr items =>
    have hlist : Document.list? some (Json.arr items) = some items := mapM_some items
    have hmany : oneOrMany? some (.arr items) = some items := by rw [oneOrMany?, hlist]
    have hoptional : optional? (oneOrMany? some) (.arr items) = some (some items) :=
      congrArg (Option.map some) hmany
    rw [hoptional]
    rfl
  | num n => cases n <;> rfl
  | _ => rfl

theorem listed?_eq :
    listed? d = (parts? 1 d).map fun parts => listedIn (parts.find 0 "Statement") := by
  have hpart : ∀ parts : Parts Json,
      (parts.optional 0 "Statement" (oneOrMany? some)).map (·.getD []) =
        some (listedIn (parts.find 0 "Statement")) := by
    intro parts
    rw [Parts.optional, Parts.defaulted]
    cases parts.find 0 "Statement" with
    | none => rfl
    | some v => exact optional?_oneOrMany? v
  have hlisted : listed? d = (parts? 1 d).bind fun parts =>
      (parts.optional 0 "Statement" (oneOrMany? some)).map (·.getD []) := by
    simp [listed?, Option.map_eq_bind]
  rw [hlisted, Option.map_eq_bind]
  exact Option.bind_congr fun parts _ => hpart parts

theorem eq_listedIn_of_listed? (h : listed? d = some ls) : ls = listedIn (statementPart? d) := by
  rw [listed?_eq] at h
  cases d with
  | obj fields => exact (Option.some.inj h).symm
  | arr items =>
    rw [parts?_arr] at h
    split at h
    · cases h
    · rw [statementPart?, List.head?_eq_getElem?]
      exact (Option.some.inj h).symm
  | num n => cases n <;> cases h
  | _ => cases h

theorem forall₂_of_respellsListed (h : RespellsListed v w) :
    List.Forall₂ SameContents (listedIn (some v)) (listedIn (some w)) := by
  have hsame : ∀ items : List Json, List.Forall₂ SameContents items items := fun items =>
    List.forall₂_same.2 fun _ _ => rfl
  cases h with
  | listed fields => exact hsame _
  | alone h => exact .cons (sameContents_of_respells h) .nil
  | @member before after s s' h =>
    exact List.rel_append (hsame before) (.cons (sameContents_of_respells h) (hsame after))

theorem rel_listed?_of_respellsDocument (h : RespellsDocument d d') :
    Option.Rel (List.Forall₂ SameContents) (listed? d) (listed? d') := by
  rw [listed?_eq, listed?_eq]
  refine rel_map_of_rel h.rel_parts? fun p q hagree => ?_
  rcases hagree.here with heq | ⟨v, w, hv, hw, hvw⟩
  · rw [heq]
    exact List.forall₂_same.2 fun _ _ => rfl
  · rw [hv, hw]
    exact forall₂_of_respellsListed hvw

/-- Reading statements one after the other, and what each says. -/
theorem map_contents_mapM (items : List Json) :
    (items.mapM read?).map (List.map contents) = items.mapM fun s => (read? s).map contents := by
  induction items with
  | nil => rfl
  | cons item items ih =>
    rw [List.mapM_cons, List.mapM_cons, ← ih]
    cases read? item with
    | none => rfl
    | some s => cases items.mapM read? <;> rfl

theorem mapM_contents (h : List.Forall₂ SameContents ls ls') :
    (ls'.mapM read?).map (List.map contents) = (ls.mapM read?).map (List.map contents) := by
  rw [map_contents_mapM, map_contents_mapM]
  induction h with
  | nil => rfl
  | cons hs _ ih => rw [List.mapM_cons, List.mapM_cons, hs, ih]

theorem raw_of_read? {s : Statement} (h : read? d = some s) : s.raw = d := by
  simp only [read?, Option.bind_eq_bind, Option.bind_eq_some_iff, Option.pure_def,
    Option.some.injEq] at h
  obtain ⟨-, -, -, -, -, -, -, -, rfl⟩ := h
  rfl

/-- As many statements are read as there are, each from how it is written. -/
theorem raw_of_mapM (h : ls.mapM read? = some ss) :
    ss.map (·.raw) = ls ∧ ∀ s ∈ ss, read? s.raw = some s := by
  induction ls generalizing ss with
  | nil =>
    cases h
    exact ⟨rfl, List.forall_mem_nil _⟩
  | cons item items ih =>
    rw [List.mapM_cons] at h
    obtain ⟨s, hs, hrest⟩ := Option.bind_eq_some_iff.1 h
    obtain ⟨rest, hmapM, heq⟩ := Option.bind_eq_some_iff.1 hrest
    cases heq
    obtain ⟨hraw, hread⟩ := ih hmapM
    have hitem := raw_of_read? hs
    exact ⟨by rw [List.map_cons, hitem, hraw],
      List.forall_mem_cons.2 ⟨by rw [hitem, hs], hread⟩⟩

end Listing

/-! ## Decoding -/

/-- The statements are those that the document lists, in order and each as it is written there. -/
structure AreListed (d : Json) (ss : List Statement) : Prop where
  raw : ss.map (·.raw) = listedIn (statementPart? d)
  each : ∀ s ∈ ss, read? s.raw = some s

/-- All statements of a document that is not text. -/
def readAll (policy : String) (d : Json) : Except PolicyError (List Statement) :=
  match (listed? d).bind (·.mapM read?) with
  | some statements => .ok statements
  | none => .error (.invalidDocument policy)

section Decoding

variable {policy text encoded : String} {d d' : Json} {ss : List Statement}

theorem decode_str : decode policy (.str text) = documentOf policy text >>= readAll policy := rfl

theorem decode_of_ne (h : ∀ text, d ≠ .str text) : decode policy d = readAll policy d := by
  cases d with
  | str text => exact absurd rfl (h text)
  | _ => rfl

theorem RespellsDocument.ne_str (h : RespellsDocument d d') :
    (∀ text, d ≠ .str text) ∧ ∀ text, d' ≠ .str text := by
  cases h with
  | named => exact ⟨nofun, nofun⟩
  | placed => exact ⟨nofun, nofun⟩

theorem areListed_of_readAll (h : readAll policy d = .ok ss) : AreListed d ss := by
  unfold readAll at h
  split at h
  · next statements hread =>
    cases h
    obtain ⟨ls, hlisted, hmapM⟩ := Option.bind_eq_some_iff.1 hread
    obtain ⟨hraw, heach⟩ := raw_of_mapM hmapM
    exact ⟨hraw.trans (eq_listedIn_of_listed? hlisted), heach⟩
  · cases h

theorem map_contents_readAll (h : Option.Rel (List.Forall₂ SameContents) (listed? d) (listed? d')) :
    (readAll policy d').map (List.map contents) = (readAll policy d).map (List.map contents) := by
  have hmap : ∀ d, (readAll policy d).map (List.map contents) =
      match ((listed? d).bind (·.mapM read?)).map (List.map contents) with
      | some said => .ok said
      | none => .error (.invalidDocument policy) := by
    intro d
    rw [readAll]
    cases (listed? d).bind (·.mapM read?) <;> rfl
  have hsame : ((listed? d').bind (·.mapM read?)).map (List.map contents) =
      ((listed? d).bind (·.mapM read?)).map (List.map contents) := by
    rw [Option.map_bind, Option.map_bind]
    exact bind_eq_of_rel h fun _ _ => mapM_contents
  rw [hmap, hmap, hsame]

theorem map_contents_decode (h : Relation.ReflTransGen RespellsDocument d d') :
    (decode policy d').map (List.map contents) = (decode policy d).map (List.map contents) := by
  induction h with
  | refl => rfl
  | tail _ hstep ih =>
    rw [← ih, decode_of_ne hstep.ne_str.1, decode_of_ne hstep.ne_str.2]
    exact map_contents_readAll (rel_listed?_of_respellsDocument hstep)

/-- Text that starts with a brace is read as it stands. -/
theorem documentOf_text (htrim : Text.trim text = text) (hbrace : text.toList.head? = some '{')
    (h : Json.ofText? text = some d) : documentOf policy text = .ok d := by
  simp only [documentOf, htrim, hbrace, if_true, pure_bind, h]
  rfl

/-- An encoding has neither blanks to drop nor a brace at its start. -/
theorem documentOf_encoded (hencodes : Text.PercentEncodes text encoded)
    (h : Json.ofText? text = some d) : documentOf policy encoded = .ok d := by
  have htrim : Text.trim encoded = encoded := by
    refine Text.trim_eq_self_iff.2 ⟨fun c hc => ?_, fun c hc => ?_⟩
    · exact (hencodes.not_blank c (List.mem_of_head? hc)).1
    · exact (hencodes.not_blank c (List.mem_of_getLast? hc)).1
  have hbrace : encoded.toList.head? ≠ some '{' := fun hhead =>
    (hencodes.not_blank '{' (List.mem_of_head? hhead)).2 rfl
  simp only [documentOf, htrim, if_neg hbrace, Text.percentDecode?_eq hencodes, pure_bind, h]
  rfl

/-- The object, the text that writes it and the encodings of that text decode alike. A single value
says the same as the list of it. What is decoded are the statements that are listed. -/
theorem decode_writings (policy : String) :
    (∀ text d, Text.trim text = text → text.toList.head? = some '{' →
      Json.ofText? text = some d →
        decode policy (.str text) = decode policy d ∧
        decode policy (.str (Text.percentEncode text)) = decode policy d ∧
        ∀ encoded, Text.PercentEncodes text encoded →
          decode policy (.str encoded) = decode policy d) ∧
    (∀ d d', Relation.ReflTransGen RespellsDocument d d' →
      (decode policy d').map (List.map contents) = (decode policy d).map (List.map contents)) ∧
    (∀ d ss, (∀ text, d ≠ .str text) → decode policy d = .ok ss → AreListed d ss) ∧
    ∀ text ss, decode policy (.str text) = .ok ss →
      ∃ d, documentOf policy text = .ok d ∧ AreListed d ss := by
  refine ⟨fun text d htrim hbrace h => ?_, fun d d' => map_contents_decode,
    fun d ss hne h => ?_, fun text ss h => ?_⟩
  · obtain ⟨fields, rfl⟩ := Json.exists_fields_of_ofText? hbrace h
    have hencoded : ∀ encoded, Text.PercentEncodes text encoded →
        decode policy (.str encoded) = decode policy (.obj fields) := by
      intro encoded hencodes
      rw [decode_str, documentOf_encoded hencodes h]
      rfl
    refine ⟨?_, hencoded _ (Text.percentEncodes_percentEncode text), hencoded⟩
    rw [decode_str, documentOf_text htrim hbrace h]
    rfl
  · rw [decode_of_ne hne] at h
    exact areListed_of_readAll h
  · rw [decode_str] at h
    obtain ⟨d, hd, hread⟩ := bind_eq_ok_iff.1 h
    exact ⟨d, hd, areListed_of_readAll hread⟩

end Decoding

/-! ## One document in several writings -/

/-- The fields of a statement about two resources, with its action as given. -/
def denying (action : Json) : Fields :=
  [("Effect", .str "Deny"), ("Action", action), ("Resource", .arr [.str "a", .str "b%7d"])]

/-- A statement that stands alone, with an action that does. -/
def denied : Json := .obj [("Statement", .obj (denying (.str "s3:*")))]

/-- The same with a list of one statement, which has a list of one action. -/
def deniedLists : Json := .obj [("Statement", .arr [.obj (denying (.arr [.str "s3:*"]))])]

def deniedText : String :=
  "\x7b\"Statement\": \x7b\"Effect\": \"Deny\", \"Action\": \"s3:*\", " ++
    "\"Resource\": [\"a\", \"b%7d\"]\x7d\x7d"

theorem respells_denied : Relation.ReflTransGen RespellsDocument denied deniedLists := by
  have haction : AtPart 1 "Action" ListsText (.obj (denying (.str "s3:*")))
      (.obj (denying (.arr [.str "s3:*"]))) :=
    @AtPart.named 1 "Action" ListsText [("Effect", .str "Deny")] _ _ _ (.text "s3:*")
  have hlisted : RespellsDocument denied
      (.obj [("Statement", .arr [.obj (denying (.str "s3:*"))])]) :=
    @AtPart.named 0 "Statement" RespellsListed [] [] _ _ (.listed _)
  have hmember : RespellsDocument (.obj [("Statement", .arr [.obj (denying (.str "s3:*"))])])
      deniedLists :=
    @AtPart.named 0 "Statement" RespellsListed [] [] _ _
      (@RespellsListed.member [] [] _ _ (.inl haction))
  exact (Relation.ReflTransGen.single hlisted).tail hmember

/-- The percent sign in a resource is a part of the text, and the encoding keeps it. -/
theorem decode_denied :
    Json.ofText? deniedText = some denied ∧
      decode "p" denied = .ok [⟨some "Deny", ["s3:*"], ["a", "b%7d"],
        .obj (denying (.str "s3:*"))⟩] ∧
      decode "p" (.str deniedText) = decode "p" denied ∧
      decode "p" (.str (Text.percentEncode deniedText)) = decode "p" denied ∧
      (decode "p" deniedLists).map (List.map contents) =
        .ok [(some "Deny", ["s3:*"], ["a", "b%7d"])] ∧
      AreListed denied [⟨some "Deny", ["s3:*"], ["a", "b%7d"], .obj (denying (.str "s3:*"))⟩] := by
  have htext : Json.ofText? deniedText = some denied := by cbv
  have hdecode : decode "p" denied = .ok [⟨some "Deny", ["s3:*"], ["a", "b%7d"],
      .obj (denying (.str "s3:*"))⟩] := rfl
  have htrim : Text.trim deniedText = deniedText := by cbv
  have hbrace : deniedText.toList.head? = some '{' := by cbv
  obtain ⟨htransports, hrespells, hlisted, -⟩ := decode_writings "p"
  obtain ⟨hplain, hencoded, -⟩ := htransports deniedText denied htrim hbrace htext
  have hobject : ∀ text, denied ≠ .str text := by simp [denied]
  have hlists := hrespells denied deniedLists respells_denied
  rw [hdecode] at hlists
  exact ⟨htext, hdecode, hplain, hencoded, hlists, hlisted denied _ hobject hdecode⟩

end Statement

end ResourceGraph
