import AuraGateway.Types.StreamEvent

/-!
# Data models

The models the Python SDK reads JSON into, and the fields it declares for them. A model
ignores a field it does not declare, refuses a value of another type that it cannot
convert, and converts some that it can.

A field type comes with the values it declares, and these are exactly the values that it
keeps as they are (`FieldType.keeps_iff`). So a model keeps an object if and only if it
declares every field of it with its value and the object has the required ones.
-/

set_option autoImplicit false

namespace AuraGateway.Sdk

open AuraGateway.Types

/-- A field type: what it makes of a value, and the values it declares. -/
structure FieldType where
  validate : Json → Option Json
  Declares : Json → Prop
  keeps_iff : ∀ j, validate j = some j ↔ Declares j

/-- The text of an integer: no fraction and no exponent. -/
def isIntText (text : String) : Bool := text.toList.all fun c => c != '.' && c != 'e' && c != 'E'

/-- An integer. -/
def IsInt (j : Json) : Prop := ∃ text, j = .number text ∧ isIntText text = true

/-- A number. -/
def IsNumber (j : Json) : Prop := ∃ text, j = .number text

/-- The conversions of the model library: what becomes of a value that is not an integer
where one is declared, of one that is not a number, and of an object without a tag where
several models are declared. What they give has the declared type. -/
structure Pydantic where
  toInt : Json → Option Json
  toFloat : Json → Option Json
  untagged : Json → Option Json
  isInt_toInt : ∀ j j', toInt j = some j' → IsInt j'
  isNumber_toFloat : ∀ j j', toFloat j = some j' → IsNumber j'

namespace FieldType

/-- Any value. -/
def anything : FieldType where
  validate := some
  Declares _ := True
  keeps_iff j := by simp

/-- A string. -/
def str : FieldType where
  validate
    | .string s => some (.string s)
    | _ => none
  Declares j := ∃ s, j = .string s
  keeps_iff j := by
    cases j <;> simp

/-- One of some strings: an enumeration, or a literal. -/
def oneOf (values : List String) : FieldType where
  validate
    | .string s => if s ∈ values then some (.string s) else none
    | _ => none
  Declares j := ∃ s ∈ values, j = .string s
  keeps_iff j := by
    cases j <;> simp

/-- An integer. -/
def int (p : Pydantic) : FieldType where
  validate
    | .number text => if isIntText text then some (.number text) else p.toInt (.number text)
    | j => p.toInt j
  Declares := IsInt
  keeps_iff j := by
    cases j with
    | number text =>
        by_cases h : isIntText text = true
        · simp [IsInt, h]
        · -- a number that is not an integer does not stay one
          refine ⟨?_, ?_⟩
          · intro hconv
            exact p.isInt_toInt _ _ (by simpa [h] using hconv)
          · rintro ⟨text', heq, h'⟩
            obtain rfl := Json.number.inj heq
            exact absurd h' h
    | _ =>
        refine ⟨fun hconv => p.isInt_toInt _ _ hconv, ?_⟩
        rintro ⟨text, heq, -⟩
        cases heq

/-- A number. -/
def float (p : Pydantic) : FieldType where
  validate
    | .number text => some (.number text)
    | j => p.toFloat j
  Declares := IsNumber
  keeps_iff j := by
    cases j with
    | number text => simp [IsNumber]
    | _ =>
        refine ⟨fun hconv => p.isNumber_toFloat _ _ hconv, ?_⟩
        rintro ⟨text, heq⟩
        cases heq

/-- `T | None`. -/
def optional (t : FieldType) : FieldType where
  validate
    | .null => some .null
    | j => t.validate j
  Declares j := j = .null ∨ t.Declares j
  keeps_iff j := by
    cases j with
    | null => simp
    | _ => simp [t.keeps_iff]

theorem mapM_eq_self_iff {α : Type} {f : α → Option α} {l : List α} :
    l.mapM f = some l ↔ ∀ x ∈ l, f x = some x := by
  induction l with
  | nil => simp
  | cons x l ih =>
      rw [List.mapM_cons, List.forall_mem_cons, ← ih]
      cases hx : f x with
      | none => simp
      | some y =>
          cases hl : l.mapM f with
          | none => simp
          | some m => simp

/-- A list of values of one type. -/
def list (t : FieldType) : FieldType where
  validate
    | .array items => (items.mapM t.validate).map .array
    | _ => none
  Declares j := ∃ items, j = .array items ∧ ∀ i ∈ items, t.Declares i
  keeps_iff j := by
    cases j with
    | array items => simp [mapM_eq_self_iff, t.keeps_iff]
    | _ => simp

/-- A dictionary of values of one type. -/
def dict (t : FieldType) : FieldType where
  validate
    | .object fields =>
        (fields.mapM fun f => (t.validate f.2).map fun value => (f.1, value)).map .object
    | _ => none
  Declares j := ∃ fields, j = .object fields ∧ ∀ f ∈ fields, t.Declares f.2
  keeps_iff j := by
    cases j with
    | object fields => simp [mapM_eq_self_iff, Prod.ext_iff, t.keeps_iff]
    | _ => simp

/-- A union of models that are told apart by a tag field. A tag that is not one of theirs
fails each of them. -/
def tagged (p : Pydantic) (tag : String) (members : List (String × FieldType)) : FieldType where
  validate j :=
    match j.get tag with
    | some (.string name) => (members.lookup name).bind fun t => t.validate j
    | some _ => none
    | none => p.untagged j
  Declares j :=
    match j.get tag with
    | some (.string name) => ∃ t, members.lookup name = some t ∧ t.Declares j
    | some _ => False
    | none => p.untagged j = some j
  keeps_iff j := by
    cases htag : j.get tag with
    | none => simp
    | some value =>
        cases value with
        | string name =>
            cases hmember : members.lookup name with
            | none => simp [hmember]
            | some t => simp [hmember, t.keeps_iff]
        | _ => simp

end FieldType

/-! ## Models -/

/-- A declared field. -/
structure Field where
  name : String
  type : FieldType
  required : Bool

/-- A field without a default. -/
def Field.req (name : String) (type : FieldType) : Field := { name, type, required := true }

/-- A field with a default. -/
def Field.opt (name : String) (type : FieldType) : Field := { name, type, required := false }

/-- The type a model declares for a field. -/
def declaredType (declared : List Field) (name : String) : Option FieldType :=
  (declared.find? fun f => f.name == name).map (·.type)

/-- Validate the declared fields and ignore the others. -/
def validateFields (declared : List Field) :
    List (String × Json) → Option (List (String × Json))
  | [] => some []
  | (name, value) :: rest =>
      match declaredType declared name with
      | none => validateFields declared rest
      | some t => do
          let value' ← t.validate value
          let rest' ← validateFields declared rest
          some ((name, value') :: rest')

variable {declared : List Field} {name : String} {value : Json} {rest : List (String × Json)}

theorem validateFields_length {fields fields' : List (String × Json)}
    (h : validateFields declared fields = some fields') : fields'.length ≤ fields.length := by
  induction fields generalizing fields' with
  | nil =>
      obtain rfl := Option.some.inj h
      exact Nat.le_refl _
  | cons f rest ih =>
      obtain ⟨name, value⟩ := f
      simp only [validateFields] at h
      split at h
      · exact Nat.le_succ_of_le (ih h)
      · simp only [Option.bind_eq_bind, Option.bind_eq_some_iff, Option.some.injEq] at h
        obtain ⟨value', -, rest', hrest, rfl⟩ := h
        exact Nat.succ_le_succ (ih hrest)

/-- The fields of an object are kept if all are declared, with their values. -/
theorem validateFields_eq_self_iff {fields : List (String × Json)} :
    validateFields declared fields = some fields ↔
      ∀ f ∈ fields, ∃ t, declaredType declared f.1 = some t ∧ t.Declares f.2 := by
  induction fields with
  | nil => simp [validateFields]
  | cons f rest ih =>
      obtain ⟨name, value⟩ := f
      rw [List.forall_mem_cons, ← ih]
      simp only [validateFields]
      cases htype : declaredType declared name with
      | none =>
          -- an undeclared field is dropped, so the object gets shorter
          refine ⟨?_, ?_⟩
          · intro h
            have hlen := validateFields_length h
            simp at hlen
          · rintro ⟨⟨t, ht, -⟩, -⟩
            cases ht
      | some t =>
          simp only [Option.some.injEq, exists_eq_left', ← t.keeps_iff]
          cases hvalue : t.validate value with
          | none => simp
          | some value' =>
              cases hrest : validateFields declared rest with
              | none => simp
              | some rest' => simp

/-- All required fields are there. -/
def hasRequired (declared : List Field) (fields : List (String × Json)) : Bool :=
  declared.all fun f => !f.required || (fields.lookup f.name).isSome

/-- A model declares this field, with this value. -/
def DeclaresField (declared : List Field) (f : String × Json) : Prop :=
  ∃ t, declaredType declared f.1 = some t ∧ t.Declares f.2

/-- A model declares all of some fields. -/
def DeclaresFields (declared : List Field) (fields : List (String × Json)) : Prop :=
  ∀ f ∈ fields, DeclaresField declared f

/-- A model. -/
def model (declared : List Field) : FieldType where
  validate
    | .object fields =>
        if hasRequired declared fields then (validateFields declared fields).map .object else none
    | _ => none
  Declares j :=
    ∃ fields, j = .object fields ∧ hasRequired declared fields = true ∧
      DeclaresFields declared fields
  keeps_iff j := by
    cases j with
    | object fields =>
        by_cases h : hasRequired declared fields = true
        · simp only [h, validateFields_eq_self_iff, DeclaresFields, DeclaresField, if_true,
            Option.map_eq_some_iff, Json.object.injEq, exists_eq_right, exists_eq_left', true_and]
        · simp [h]
    | _ => simp

/-! ## What is declared -/

section Declared

variable {f : Field} {p : Pydantic}

@[simp] theorem declares_model_object {fields : List (String × Json)} :
    (model declared).Declares (.object fields) ↔
      hasRequired declared fields = true ∧ DeclaresFields declared fields := by
  simp [model]

@[simp] theorem declaresFields_nil : DeclaresFields declared [] := by
  intro f hf
  cases hf

@[simp] theorem declaresFields_cons {f : String × Json} {fields : List (String × Json)} :
    DeclaresFields declared (f :: fields) ↔
      DeclaresField declared f ∧ DeclaresFields declared fields :=
  List.forall_mem_cons

@[simp] theorem declaresFields_append {fields more : List (String × Json)} :
    DeclaresFields declared (fields ++ more) ↔
      DeclaresFields declared fields ∧ DeclaresFields declared more :=
  List.forall_mem_append

@[simp] theorem declaresFields_optional {o : Option Json} :
    DeclaresFields declared (Json.optional name o) ↔ ∀ v ∈ o, DeclaresField declared (name, v) := by
  cases o <;> simp [Json.optional]

@[simp] theorem not_declaresField_nil {f : String × Json} : ¬ DeclaresField [] f := by
  rintro ⟨t, ht, -⟩
  cases ht

/-- The first declaration of a name counts. -/
@[simp] theorem declaresField_cons :
    DeclaresField (f :: declared) (name, value) ↔
      if f.name = name then f.type.Declares value else DeclaresField declared (name, value) := by
  by_cases h : f.name = name
  · simp [DeclaresField, declaredType, h]
  · have hne : (f.name == name) = false := by simpa using h
    simp [DeclaresField, declaredType, hne, h]

@[simp] theorem declares_anything : FieldType.anything.Declares value := trivial

@[simp] theorem declares_str_string {s : String} : FieldType.str.Declares (.string s) := ⟨s, rfl⟩

@[simp] theorem declares_oneOf_string {values : List String} {s : String} :
    (FieldType.oneOf values).Declares (.string s) ↔ s ∈ values := by
  simp [FieldType.oneOf]

@[simp] theorem declares_optional {t : FieldType} :
    t.optional.Declares value ↔ value = .null ∨ t.Declares value := Iff.rfl

@[simp] theorem declares_list_array {t : FieldType} {items : List Json} :
    t.list.Declares (.array items) ↔ ∀ i ∈ items, t.Declares i := by
  simp [FieldType.list]

theorem declares_tagged {tag name : String} {members : List (String × FieldType)}
    (h : value.get tag = some (.string name)) :
    (FieldType.tagged p tag members).Declares value ↔
      ∃ t, members.lookup name = some t ∧ t.Declares value := by
  simp [FieldType.tagged, h]

theorem isIntText_iff {text : String} :
    isIntText text = true ↔ ∀ c ∈ text.toList, c ≠ '.' ∧ c ≠ 'e' ∧ c ≠ 'E' := by
  simp [isIntText, and_assoc]

/-- The text of an integer is that of one. -/
theorem isIntText_repr (n : Nat) : isIntText n.repr = true := by
  rw [isIntText_iff]
  intro c hc
  have hdigit : c.isDigit = true := by
    apply Nat.isDigit_of_mem_toDigits (b := 10) (by decide) (by decide)
    simpa [Nat.repr] using hc
  refine ⟨?_, ?_, ?_⟩ <;>
  · rintro rfl
    exact absurd hdigit (by decide)

@[simp] theorem declares_int_nat (n : Nat) : (FieldType.int p).Declares (.nat n) :=
  ⟨_, rfl, isIntText_repr n⟩

@[simp] theorem declares_int_int (n : Int) : (FieldType.int p).Declares (.int n) := by
  refine ⟨_, rfl, ?_⟩
  cases n with
  | ofNat m => exact isIntText_repr m
  | negSucc m =>
      -- a sign in front of digits
      have hdigits := isIntText_iff.mp (isIntText_repr (Nat.succ m))
      rw [isIntText_iff]
      show ∀ c ∈ ("-" ++ (Nat.succ m).repr).toList, _
      simpa using hdigits

end Declared

end AuraGateway.Sdk
