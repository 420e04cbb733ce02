import Mathlib.Data.List.Basic

/-!
# JSON documents

A document as a parser hands it on, and how derived code reads it.  The members of
an object are kept in the order of the text, repetitions included; of the numbers
the natural ones are read, and of any other number the text is kept.

`Json.fields` reads a structure with named fields: from an object, whose other
members are ignored and whose named members must not be repeated, or from an array
with as many elements.  `Json.variant` reads an externally tagged enumeration: an
object with one member, or a string for a variant without content.

`Json.select` follows a path into a document (`Json.Step`), through the same two
readings, to all the values that stand there.
-/

/-- A JSON document. -/
inductive Json
  | null
  | bool (b : Bool)
  | nat (n : Nat)
  | number (literal : String)
  | string (s : String)
  | array (elements : List Json)
  | object (members : List (String × Json))

namespace Json

variable {α β : Type}

/-! ### Reading -/

/-- A natural number below the bound. -/
def readNat (bound : Nat) : Json → Option Nat
  | nat n => if n < bound then some n else none
  | _ => none

def readString : Json → Option String
  | string s => some s
  | _ => none

/-- A sequence of any length. -/
def readList (read : Json → Option α) : Json → Option (List α)
  | array elements => elements.mapM read
  | _ => none

def readOption (read : Json → Option α) : Json → Option (Option α)
  | null => some none
  | j => (read j).map some

def readNull : Json → Option Unit
  | null => some ()
  | _ => none

/-- The fields that are present, each once. -/
def fields (names : List String) : Json → Option (List (String × Json))
  | array elements =>
    if elements.length = names.length then some (names.zip elements) else none
  | object members =>
    let known := members.filter fun m => names.contains m.1
    if (known.map Prod.fst).Nodup then some known else none
  | _ => none

/-- A field that must be present. -/
def required (fields : List (String × Json)) (name : String) (read : Json → Option α) : Option α :=
  (fields.lookup name).bind read

/-- A field that may be missing. -/
def optional (fields : List (String × Json)) (name : String) (read : Json → Option α) :
    Option (Option α) :=
  match fields.lookup name with
  | none => some none
  | some j => j.readOption read

/-- The name of a variant, and its content if it has any. -/
def variant : Json → Option (String × Option Json)
  | string name => some (name, none)
  | object [(name, content)] => some (name, some content)
  | _ => none

/-! ### Paths -/

/-- One step into a document. -/
inductive Step
  | field (names : List String) (name : String)
  | element
  | content (name : String)

/-- The values one step leads to. -/
def Step.follow : Step → Json → List Json
  | field names name, j => ((j.fields names).bind fun fields => fields.lookup name).toList
  | element, array elements => elements
  | element, _ => []
  | content name, j =>
    match j.variant with
    | some (name', some j') => if name' = name then [j'] else []
    | _ => []

/-- The values at the end of a path. -/
def select (j : Json) : List Step → List Json
  | [] => [j]
  | step :: path => (step.follow j).flatMap fun j' => j'.select path

theorem select_field {names : List String} {name : String} {fs : List (String × Json)} {j : Json}
    {read : Json → Option α} {a : α} (path : List Step) (hfields : j.fields names = some fs)
    (hread : required fs name read = some a) :
    ∃ j', read j' = some a ∧ j.select (.field names name :: path) = j'.select path := by
  obtain ⟨j', hj', ha⟩ := Option.bind_eq_some_iff.mp hread
  refine ⟨j', ha, ?_⟩
  rw [select, Step.follow, hfields, Option.bind_some, hj', Option.toList_some,
    List.flatMap_singleton]

theorem select_content {name : String} {j content : Json} (name' : String) (path : List Step)
    (h : j.variant = some (name, some content)) :
    j.select (.content name' :: path) = if name = name' then content.select path else [] := by
  rw [select, Step.follow, h]
  dsimp only
  split
  · rw [List.flatMap_singleton]
  · rfl

/-- What is at the end of a path in every element. -/
theorem select_element {read : Json → Option α} {path : List Step} {f : α → Json} {j : Json}
    {l : List α} (h : j.readList read = some l)
    (hread : ∀ j' a, read j' = some a → j'.select path = [f a]) :
    j.select (.element :: path) = l.map f := by
  cases j with
  | array elements =>
    rw [readList] at h
    rw [select, Step.follow]
    induction elements generalizing l with
    | nil =>
      obtain rfl := Option.some.inj h
      rfl
    | cons j elements ih =>
      rw [List.mapM_cons] at h
      obtain ⟨a, ha, h⟩ := Option.bind_eq_some_iff.mp h
      obtain ⟨l', hl', h⟩ := Option.bind_eq_some_iff.mp h
      obtain rfl := Option.some.inj h
      rw [List.flatMap_cons, List.map_cons, ih hl', hread j a ha, List.singleton_append]
  | _ => cases h

end Json
