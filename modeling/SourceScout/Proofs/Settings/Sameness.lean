import SourceScout.Settings.Store

/-!
# Values and documents that are the same

A settings document that is written and read again need not have its keys in the old order, and a
table that stood inside a line gets lines of its own. What counts is what is found at each place: a
place is reached by keys of tables and positions in lists.
-/

namespace SourceScout

namespace Value

inductive Place where
  | key (name : Text)
  | item (index : Nat)

def items? : Value → Option (List Value)
  | .list items => some items
  | _ => none

def below? : Place → Value → Option Value
  | .key name, v => v.fields?.bind (get? name)
  | .item index, v => v.items?.bind (·[index]?)

def at? : List Place → Value → Option Value
  | [], v => some v
  | place :: places, v => (v.below? place).bind (at? places)

/-- A value without what stands in it: of a list the length stays. -/
def shell : Value → Value
  | .list items => .list (items.map fun _ => .null)
  | .table _ => .table []
  | .inline _ => .table []
  | v => v

/-- Two searches have found the same: nothing, or values with the same at every place. -/
def Agree (a b : Option Value) : Prop :=
  ∀ places, (a.bind (at? places)).map shell = (b.bind (at? places)).map shell

def Same (v w : Value) : Prop := Agree (some v) (some w)

section

variable {a b c : Option Value} {v w : Value}

theorem Agree.refl (a : Option Value) : Agree a a := fun _ => rfl

theorem Agree.trans (hab : Agree a b) (hbc : Agree b c) : Agree a c :=
  fun places => (hab places).trans (hbc places)

theorem Agree.map_shell (h : Agree a b) : a.map shell = b.map shell := by
  have hnil := h []
  rwa [show at? [] = some from rfl, Option.bind_fun_some, Option.bind_fun_some] at hnil

theorem Agree.bind_below? (h : Agree a b) (place : Place) :
    Agree (a.bind (below? place)) (b.bind (below? place)) := by
  intro places
  rw [Option.bind_assoc, Option.bind_assoc]
  exact h (place :: places)

theorem Agree.eq_none_iff (h : Agree a b) : a = none ↔ b = none := by
  rw [← Option.map_eq_none_iff (f := shell), h.map_shell, Option.map_eq_none_iff]

theorem Agree.exists_same (h : Agree (some v) b) : ∃ w, b = some w ∧ Same v w := by
  cases b with
  | none => cases h.eq_none_iff.mpr rfl
  | some w => exact ⟨w, rfl, h⟩

theorem Same.shell_eq (h : Same v w) : shell v = shell w := Option.some.inj h.map_shell

theorem Same.eq_int {n : Int} (h : Same (.int n) w) : w = .int n := by
  have hshell := h.shell_eq
  cases w <;> cases hshell
  rfl

theorem Same.eq_text {t : Text} (h : Same (.text t) w) : w = .text t := by
  have hshell := h.shell_eq
  cases w <;> cases hshell
  rfl

theorem Same.eq_texts {names : List Text} (h : Same (.list (names.map .text)) w) :
    w = .list (names.map .text) := by
  have hshell := h.shell_eq
  cases w with
  | list items =>
    have hlength : items.length = names.length := by
      have hmap := congrArg List.length (Value.list.inj hshell)
      simpa using hmap.symm
    congr 1
    apply List.ext_getElem
    · rw [hlength, List.length_map]
    · intro i hi hi'
      have hitem := h.bind_below? (.item i)
      simp only [Option.bind_some, below?, items?, List.getElem?_eq_getElem hi',
        List.getElem?_eq_getElem hi, List.getElem_map] at hitem
      rw [List.getElem_map]
      exact Same.eq_text hitem
  | _ => cases hshell

@[simp]
theorem fields?_withFields (fields : List (Text × Value)) (v : Value) :
    (v.withFields fields).fields? = some fields := by
  cases v <;> rfl

end

/-! ## Values without fractions -/

mutual
def equals : Value → Value → Bool
  | .null, .null => true
  | .bool a, .bool b => a == b
  | .int a, .int b => a == b
  | .text a, .text b => a == b
  | .list a, .list b => equalItems a b
  | .table a, .table b => equalFields a b
  | .inline a, .inline b => equalFields a b
  | .moment a, .moment b => decide (a = b)
  | _, _ => false

def equalItems : List Value → List Value → Bool
  | [], [] => true
  | a :: as, b :: bs => equals a b && equalItems as bs
  | _, _ => false

def equalFields : List (Text × Value) → List (Text × Value) → Bool
  | [], [] => true
  | (k, a) :: as, (l, b) :: bs => k == l && equals a b && equalFields as bs
  | _, _ => false
end

mutual
theorem eq_of_equals (v w : Value) (h : equals v w = true) : v = w := by
  cases v <;> cases w <;> simp [equals] at h <;> try congr
  · exact eq_of_equalItems _ _ h
  · exact eq_of_equalFields _ _ h
  · exact eq_of_equalFields _ _ h

theorem eq_of_equalItems (as bs : List Value) (h : equalItems as bs = true) : as = bs := by
  match as, bs, h with
  | [], [], _ => rfl
  | a :: as, b :: bs, h =>
    rw [equalItems, Bool.and_eq_true] at h
    rw [eq_of_equals a b h.1, eq_of_equalItems as bs h.2]

theorem eq_of_equalFields (as bs : List (Text × Value)) (h : equalFields as bs = true) :
    as = bs := by
  match as, bs, h with
  | [], [], _ => rfl
  | (k, a) :: as, (l, b) :: bs, h =>
    rw [equalFields, Bool.and_eq_true, Bool.and_eq_true, beq_iff_eq] at h
    rw [h.1.1, eq_of_equals a b h.1.2, eq_of_equalFields as bs h.2]
end

end Value

namespace Document

def Same (document other : Document) : Prop :=
  ∀ key, Value.Agree (Value.get? key document) (Value.get? key other)

theorem Same.refl (document : Document) : Same document document := fun _ => .refl _

def isReading (document : Document) : Except Failure Document → Bool
  | .ok other => Value.equalFields other document
  | .error _ => false

theorem eq_ok_of_isReading {document : Document} {reading : Except Failure Document}
    (h : isReading document reading = true) : reading = .ok document := by
  cases reading with
  | error failure => cases h
  | ok other => rw [Value.eq_of_equalFields other document h]

end Document

end SourceScout
