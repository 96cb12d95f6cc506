import Dcp.Dispatch.Validation
import Dcp.Library.Outcome

/-!
The validator once more, with the operations that may panic: shifting a word by its width or more.
No call reaches them, and what is accepted is described without the loops, the masks and the shifts.
-/

namespace Dcp
open Library

namespace SchemaValidator

/-- `word >> amount` -/
def shiftRight (word : UInt64) (amount : Nat) : Outcome DCPError UInt64 :=
  if amount < 64 then .ok (word >>> UInt64.ofNat amount) else .panic

/-- `1 << amount` -/
def shiftedOne (amount : Nat) : Outcome DCPError UInt64 :=
  if amount < 64 then .ok (bit amount) else .panic

/-- The product with four is a checked one. -/
def argTypeOrPanic (layout : UInt64) (index : Nat) : Outcome DCPError ArgType := do
  Outcome.ensure (index * 4 < 18446744073709551616) .validationFailed
  let shifted ← shiftRight layout (index * 4)
  match ArgType.fromU8 (shifted &&& 15).toUInt8 with
  | some t => .ok t
  | none => .error .validationFailed

def fieldOrPanic (args : SharedArgs) (idx : Nat) (field : FieldDef) (presentMask : UInt64)
    (declaredDataLen : Nat) : Outcome DCPError (UInt64 × Nat) :=
  if idx ≥ 16 then .error .validationFailed
  else do
    let actualType ← argTypeOrPanic args.layout idx
    if actualType = .null then .ok (presentMask, declaredDataLen)
    else if actualType ≠ field.fieldType then .error .validationFailed
    else if field.endOffset > args.data.length then .error .outOfBounds
    else do
      -- the byte is looked up, not indexed
      Outcome.ofExcept id (validateEnumByte args field)
      let flag ← shiftedOne idx
      .ok (presentMask ||| flag, max declaredDataLen field.endOffset)

def fieldsOrPanic (args : SharedArgs) :
    List FieldDef → Nat → UInt64 → Nat → Outcome DCPError (UInt64 × Nat)
  | [], _, presentMask, declaredDataLen => .ok (presentMask, declaredDataLen)
  | field :: rest, idx, presentMask, declaredDataLen => do
      let (mask, len) ← fieldOrPanic args idx field presentMask declaredDataLen
      fieldsOrPanic args rest (idx + 1) mask len

def undeclaredOrPanic (args : SharedArgs) : List Nat → Outcome DCPError Unit
  | [] => .ok ()
  | idx :: rest => do
      let t ← argTypeOrPanic args.layout idx
      if t ≠ .null then .error .validationFailed else undeclaredOrPanic args rest

def sharedArgsOrPanic (schema : InputSchema) (args : SharedArgs) : Outcome DCPError Unit := do
  let (presentMask, declaredDataLen) ← fieldsOrPanic args schema.fields 0 0 0
  undeclaredOrPanic args (List.range' schema.fields.length (16 - schema.fields.length))
  if args.data.length > declaredDataLen then .error .validationFailed
  else Outcome.ofExcept id (validateRequired schema presentMask)

theorem argTypeOrPanic_eq (layout : UInt64) {index : Nat} (h : index < 16) :
    argTypeOrPanic layout index = .ofExcept id (argTypeFromLayout layout index) := by
  have hproduct : index * 4 < 18446744073709551616 := by omega
  have hshift : shiftRight layout (index * 4) = .ok (layout >>> UInt64.ofNat (index * 4)) :=
    if_pos (by omega)
  rw [argTypeOrPanic, Outcome.ensure, if_pos hproduct, hshift, Outcome.ok_bind, Outcome.ok_bind,
    argTypeFromLayout, layoutNibble]
  cases ArgType.fromU8 (layout >>> UInt64.ofNat (index * 4) &&& 15).toUInt8 <;> rfl

theorem fieldOrPanic_eq (args : SharedArgs) (idx : Nat) (field : FieldDef) (mask : UInt64)
    (len : Nat) :
    fieldOrPanic args idx field mask len =
      .ofExcept id (validateField args idx field mask len) := by
  rw [fieldOrPanic, validateField]
  by_cases hidx : idx ≥ 16
  · rw [if_pos hidx, if_pos hidx]
    rfl
  · have hflag : shiftedOne idx = .ok (bit idx) := if_pos (by omega)
    rw [if_neg hidx, if_neg hidx, argTypeOrPanic_eq args.layout (by omega), Outcome.ofExcept_bind,
      hflag]
    congr 1
    funext actualType
    rw [Outcome.ofExcept_ite, Outcome.ofExcept_ite, Outcome.ofExcept_ite, Outcome.ofExcept_bind]
    rfl

theorem fieldsOrPanic_eq (args : SharedArgs) (fields : List FieldDef) (idx : Nat) (mask : UInt64)
    (len : Nat) :
    fieldsOrPanic args fields idx mask len =
      .ofExcept id (validateFields args fields idx mask len) := by
  induction fields generalizing idx mask len with
  | nil => rfl
  | cons field rest ih =>
      rw [fieldsOrPanic, validateFields, fieldOrPanic_eq, Outcome.ofExcept_bind]
      congr 1
      funext acc
      exact ih (idx + 1) acc.1 acc.2

theorem undeclaredOrPanic_eq (args : SharedArgs) {indices : List Nat}
    (h : ∀ idx ∈ indices, idx < 16) :
    undeclaredOrPanic args indices = .ofExcept id (validateUndeclared args indices) := by
  induction indices with
  | nil => rfl
  | cons idx rest ih =>
      obtain ⟨hidx, hrest⟩ := List.forall_mem_cons.mp h
      rw [undeclaredOrPanic, validateUndeclared, argTypeOrPanic_eq args.layout hidx,
        Outcome.ofExcept_bind]
      congr 1
      funext t
      rw [Outcome.ofExcept_ite, ih hrest]
      rfl

/-- The validator comes to an end without a panic, and with the result that the model without panics
gives. -/
theorem sharedArgsOrPanic_eq (schema : InputSchema) (args : SharedArgs) :
    sharedArgsOrPanic schema args = .ofExcept id (validateSharedArgs schema args) := by
  have hindices : ∀ idx ∈ List.range' schema.fields.length (16 - schema.fields.length),
      idx < 16 := by
    intro idx hidx
    rw [List.mem_range'_1] at hidx
    omega
  rw [sharedArgsOrPanic, validateSharedArgs, fieldsOrPanic_eq, Outcome.ofExcept_bind]
  congr 1
  funext acc
  obtain ⟨presentMask, declaredDataLen⟩ := acc
  dsimp only
  rw [undeclaredOrPanic_eq args hindices, Outcome.ofExcept_bind]
  refine congrArg _ (funext fun _ => ?_)
  rw [Outcome.ofExcept_ite]
  rfl

end SchemaValidator

/-- The type that nibble `i` of the layout stands for, if it is one. -/
def SharedArgs.nibbleType (args : SharedArgs) (i : Nat) : Option ArgType :=
  ArgType.fromU8 (layoutNibble args.layout i).toUInt8

/-- The field is declared at the index, and its nibble is not null. -/
def SharedArgs.Presents (args : SharedArgs) (schema : InputSchema) (i : Nat) (field : FieldDef) :
    Prop :=
  schema.fields[i]? = some field ∧ args.nibbleType i ≠ some .null

/-- Arguments that fit their schema. -/
structure WellFormedArgs (schema : InputSchema) (args : SharedArgs) : Prop where
  count : schema.fields.length ≤ 16
  decodes : ∀ i < 16, ∃ t, args.nibbleType i = some t
  undeclared : ∀ i < 16, schema.fields.length ≤ i → args.nibbleType i = some .null
  typed : ∀ i field, args.Presents schema i field → args.nibbleType i = some field.fieldType
  inside : ∀ i field, args.Presents schema i field →
    field.offset.toNat + field.size.toNat ≤ args.data.length
  ranged : ∀ i field, args.Presents schema i field → ∀ lo hi, field.enumRange = some (lo, hi) →
    ∃ first, args.data[field.offset.toNat]? = some first ∧ lo ≤ first ∧ first ≤ hi
  /-- The data are no longer than the largest end of a field that is present. -/
  bounded : ∀ n, (∀ i field, args.Presents schema i field →
    field.offset.toNat + field.size.toNat ≤ n) → args.data.length ≤ n
  required : ∀ i < 64, schema.isRequired i = true → ∃ field, args.Presents schema i field

section
variable {schema : InputSchema} {args : SharedArgs} {i : Nat} {field : FieldDef}

theorem nibbleType_eq_some_iff {t : ArgType} :
    args.nibbleType i = some t ↔ argTypeFromLayout args.layout i = .ok t :=
  (argTypeFromLayout_ok_iff args.layout i t).symm

theorem presents_iff :
    args.Presents schema i field ↔ schema.fields[i]? = some field ∧ args.present i = true := by
  rw [SharedArgs.Presents, Ne, nibbleType_eq_some_iff, SharedArgs.present, decide_eq_true_iff]

theorem Accepts.field_of_presents (h : Accepts schema args)
    (hpresent : args.Presents schema i field) :
    args.nibbleType i = some field.fieldType ∧ field.endOffset ≤ args.data.length ∧
      (field.enumRange.isSome → ∃ first, args.data[field.offset.toNat]? = some first ∧
        field.EnumAllows first) := by
  rcases h.fields i field hpresent.1 with hnull | ⟨htype, -, hend, henum⟩
  · exact absurd (nibbleType_eq_some_iff.mpr hnull) hpresent.2
  · exact ⟨nibbleType_eq_some_iff.mpr htype, hend, henum⟩

theorem Accepts.wellFormed (h : Accepts schema args) : WellFormedArgs schema args where
  count := h.count
  decodes i hi := by
    by_cases hdeclared : i < schema.fields.length
    · rcases h.fields i _ (List.getElem?_eq_getElem hdeclared) with hnull | ⟨htype, -⟩
      · exact ⟨_, nibbleType_eq_some_iff.mpr hnull⟩
      · exact ⟨_, nibbleType_eq_some_iff.mpr htype⟩
    · exact ⟨_, nibbleType_eq_some_iff.mpr (h.undeclared i (by omega) hi)⟩
  undeclared i hi hlen := nibbleType_eq_some_iff.mpr (h.undeclared i hlen hi)
  typed _ _ hpresent := (h.field_of_presents hpresent).1
  inside _ _ hpresent := (h.field_of_presents hpresent).2.1
  ranged _ field hpresent lo hi hrange := by
    obtain ⟨first, hfirst, hallowed⟩ := (h.field_of_presents hpresent).2.2 (by rw [hrange]; rfl)
    exact ⟨first, hfirst, hallowed lo hi hrange⟩
  bounded n hn := by
    rcases h.bounded with hzero | ⟨i, field, hfield, hpresent, hle⟩
    · omega
    · exact hle.trans (hn i field (presents_iff.mpr ⟨hfield, hpresent⟩))
  required i hi hrequired := by
    obtain ⟨hlt, hpresent⟩ := h.required i hi hrequired
    exact ⟨_, presents_iff.mpr ⟨List.getElem?_eq_getElem hlt, hpresent⟩⟩

theorem WellFormedArgs.accepts (h : WellFormedArgs schema args) : Accepts schema args where
  count := h.count
  fields i field hfield := by
    by_cases hnull : args.nibbleType i = some .null
    · exact .inl (nibbleType_eq_some_iff.mp hnull)
    · have hpresent : args.Presents schema i field := ⟨hfield, hnull⟩
      have htype := h.typed i field hpresent
      refine .inr ⟨nibbleType_eq_some_iff.mp htype, ?_, h.inside i field hpresent, ?_⟩
      · intro heq
        exact hnull (heq ▸ htype)
      · intro hsome
        obtain ⟨⟨lo, hi⟩, hrange⟩ := Option.isSome_iff_exists.mp hsome
        obtain ⟨first, hfirst, hlo, hhi⟩ := h.ranged i field hpresent lo hi hrange
        refine ⟨first, hfirst, fun lo' hi' heq => ?_⟩
        rw [hrange] at heq
        cases heq
        exact ⟨hlo, hhi⟩
  undeclared i hlen hi := nibbleType_eq_some_iff.mp (h.undeclared i hi hlen)
  bounded := by
    -- were all ends below the length, one less than the length would bound them
    by_contra hnot
    rw [not_or] at hnot
    obtain ⟨hpos, hnone⟩ := hnot
    have hle := h.bounded (args.data.length - 1) fun i field hpresent => by
      have hin := presents_iff.mp hpresent
      have hlt : ¬ args.data.length ≤ field.endOffset := fun hle =>
        hnone ⟨i, field, hin.1, hin.2, hle⟩
      rw [FieldDef.endOffset] at hlt
      omega
    omega
  required i hi hrequired := by
    obtain ⟨field, hpresent⟩ := h.required i hi hrequired
    have hin := presents_iff.mp hpresent
    exact ⟨(List.getElem?_eq_some_iff.mp hin.1).1, hin.2⟩

end

/-- The validator never panics, and accepts exactly the arguments that fit the schema. -/
theorem SchemaValidator.accepts_exactly_wellFormed (schema : InputSchema) (args : SharedArgs) :
    sharedArgsOrPanic schema args ≠ .panic ∧
      (sharedArgsOrPanic schema args = .ok () ↔ WellFormedArgs schema args) := by
  rw [sharedArgsOrPanic_eq]
  refine ⟨Outcome.ofExcept_ne_panic _, ?_⟩
  rw [Outcome.ofExcept_eq_ok_iff, validateSharedArgs_ok_iff]
  exact ⟨Accepts.wellFormed, WellFormedArgs.accepts⟩

end Dcp
