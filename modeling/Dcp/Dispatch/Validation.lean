import Dcp.Dispatch.Schema
import Dcp.Library.Result

/-!
What the validator accepts, as a statement about the schema, the data and the layout
nibbles. The two loops are characterised once; every later result about accepted
arguments goes through `validateSharedArgs_ok_iff`.
-/

namespace Dcp
open Library

theorem argTypeFromLayout_ok_iff (layout : UInt64) (index : Nat) (t : ArgType) :
    argTypeFromLayout layout index = .ok t ↔
      ArgType.fromU8 (layoutNibble layout index).toUInt8 = some t := by
  unfold argTypeFromLayout
  cases ArgType.fromU8 (layoutNibble layout index).toUInt8 <;> simp

theorem ArgType.eq_toU8_of_fromU8 {value : UInt8} {t : ArgType}
    (h : ArgType.fromU8 value = some t) : value = t.toU8 := by
  apply UInt8.toNat_inj.mp
  unfold ArgType.fromU8 at h
  split at h <;> first | contradiction | (cases h; assumption)

theorem toNat_layoutNibble_lt (layout : UInt64) (index : Nat) :
    (layoutNibble layout index).toNat < 16 := by
  rw [layoutNibble, UInt64.toNat_and]
  exact Nat.lt_of_le_of_lt Nat.and_le_right (by decide)

/-- The nibble is determined by the type it decodes to. -/
theorem layoutNibble_eq_of_argType {a b : UInt64} {index : Nat} {t : ArgType}
    (ha : argTypeFromLayout a index = .ok t) (hb : argTypeFromLayout b index = .ok t) :
    layoutNibble a index = layoutNibble b index := by
  have hbytes : (layoutNibble a index).toUInt8 = (layoutNibble b index).toUInt8 :=
    (ArgType.eq_toU8_of_fromU8 ((argTypeFromLayout_ok_iff a index t).mp ha)).trans
      (ArgType.eq_toU8_of_fromU8 ((argTypeFromLayout_ok_iff b index t).mp hb)).symm
  have hnat := congrArg UInt8.toNat hbytes
  have hltA := toNat_layoutNibble_lt a index
  have hltB := toNat_layoutNibble_lt b index
  simp only [UInt64.toNat_toUInt8] at hnat
  apply UInt64.toNat_inj.mp
  omega

theorem testBit_layoutNibble (layout : UInt64) {index b : Nat} (hi : index < 16) (hb : b < 4) :
    (layoutNibble layout index).toNat.testBit b = layout.toNat.testBit (index * 4 + b) := by
  have hshift : (UInt64.ofNat (index * 4)).toNat % 64 = index * 4 := by
    simp only [UInt64.toNat_ofNat']
    omega
  rw [layoutNibble, UInt64.toNat_and, UInt64.toNat_shiftRight, hshift, Nat.testBit_and,
    Nat.testBit_shiftRight]
  have hmask : (15 : UInt64).toNat.testBit b = true := by
    have h : b = 0 ∨ b = 1 ∨ b = 2 ∨ b = 3 := by omega
    obtain rfl | rfl | rfl | rfl := h <;> decide
  rw [hmask, Bool.and_true]

/-- A layout word is its sixteen nibbles. -/
theorem layout_ext {a b : UInt64} (h : ∀ i < 16, layoutNibble a i = layoutNibble b i) :
    a = b := by
  apply UInt64.toNat_inj.mp
  apply Nat.eq_of_testBit_eq
  intro i
  by_cases hi : i < 64
  · have hbits := congrArg (fun w : UInt64 => w.toNat.testBit (i % 4)) (h (i / 4) (by omega))
    simp only [testBit_layoutNibble _ (show i / 4 < 16 by omega) (show i % 4 < 4 by omega)]
      at hbits
    rwa [show i / 4 * 4 + i % 4 = i by omega] at hbits
  · have hpow : 2 ^ 64 ≤ 2 ^ i := Nat.pow_le_pow_right (by decide) (by omega)
    rw [Nat.testBit_lt_two_pow (Nat.lt_of_lt_of_le a.toNat_lt hpow),
      Nat.testBit_lt_two_pow (Nat.lt_of_lt_of_le b.toNat_lt hpow)]

/-- The nibble after the type of argument `idx` has been added to a layout word. -/
theorem layoutNibble_or_shift (layout : UInt64) (t : ArgType) {idx i : Nat} (hidx : idx < 16)
    (hi : i < 16) :
    layoutNibble (layout ||| t.toU8.toUInt64 <<< UInt64.ofNat (idx * 4)) i =
      if i = idx then layoutNibble layout i ||| t.toU8.toUInt64 else layoutNibble layout i := by
  have htype : t.toU8.toUInt64.toNat < 2 ^ 4 := by
    rw [UInt8.toNat_toUInt64]
    exact t.toU8_lt
  have hshift : (UInt64.ofNat (idx * 4)).toNat % 64 = idx * 4 := by
    simp only [UInt64.toNat_ofNat']
    omega
  have hlow : ∀ b, b < 4 →
      (layout ||| t.toU8.toUInt64 <<< UInt64.ofNat (idx * 4)).toNat.testBit (i * 4 + b) =
        (layout.toNat.testBit (i * 4 + b) ||
          (decide (i = idx) && t.toU8.toUInt64.toNat.testBit b)) := by
    intro b hb
    rw [UInt64.toNat_or, UInt64.toNat_shiftLeft, hshift, Nat.testBit_or, Nat.testBit_mod_two_pow,
      Nat.testBit_shiftLeft]
    congr 1
    by_cases hlt : i < idx
    · simp [show ¬ idx * 4 ≤ i * 4 + b by omega, show i ≠ idx by omega]
    · by_cases heq : i = idx
      · subst heq
        simp [show i * 4 + b < 64 by omega]
      · have hhigh : t.toU8.toUInt64.toNat.testBit (i * 4 + b - idx * 4) = false := by
          apply Nat.testBit_lt_two_pow
          exact Nat.lt_of_lt_of_le htype (Nat.pow_le_pow_right (by decide) (by omega))
        simp only [hhigh, Bool.and_false, heq, decide_false, Bool.false_and]
  apply UInt64.toNat_inj.mp
  apply Nat.eq_of_testBit_eq
  intro b
  by_cases hb : b < 4
  · rw [testBit_layoutNibble _ hi hb, hlow b hb]
    by_cases heq : i = idx
    · rw [if_pos heq, UInt64.toNat_or, Nat.testBit_or, testBit_layoutNibble _ hi hb]
      simp [heq]
    · rw [if_neg heq, testBit_layoutNibble _ hi hb]
      simp [heq]
  · have hpow : 2 ^ 4 ≤ 2 ^ b := Nat.pow_le_pow_right (by decide) (by omega)
    have hbits : ∀ w, (layoutNibble w i).toNat.testBit b = false := fun w =>
      Nat.testBit_lt_two_pow (Nat.lt_of_lt_of_le (toNat_layoutNibble_lt w i) hpow)
    rw [hbits]
    by_cases heq : i = idx
    · rw [if_pos heq, UInt64.toNat_or, Nat.testBit_or, hbits,
        Nat.testBit_lt_two_pow (Nat.lt_of_lt_of_le htype hpow)]
      rfl
    · rw [if_neg heq, hbits]

theorem argTypeFromLayout_of_layoutNibble {layout : UInt64} {index : Nat} {t : ArgType}
    (h : layoutNibble layout index = t.toU8.toUInt64) :
    argTypeFromLayout layout index = .ok t := by
  rw [argTypeFromLayout_ok_iff, h]
  simp

/-- The nibble of argument `idx` is not null. -/
def SharedArgs.present (args : SharedArgs) (idx : Nat) : Bool :=
  decide (argTypeFromLayout args.layout idx ≠ .ok .null)

/-- The value lies in the field's range, if the field has one. -/
def FieldDef.EnumAllows (field : FieldDef) (value : UInt8) : Prop :=
  ∀ lo hi, field.enumRange = some (lo, hi) → lo ≤ value ∧ value ≤ hi

/-- A declared field is absent, or present with its own type and inside the data. -/
def FieldOk (args : SharedArgs) (idx : Nat) (field : FieldDef) : Prop :=
  argTypeFromLayout args.layout idx = .ok .null ∨
    (argTypeFromLayout args.layout idx = .ok field.fieldType ∧ field.fieldType ≠ .null ∧
      field.endOffset ≤ args.data.length ∧
      (field.enumRange.isSome → ∃ value, args.data[field.offset.toNat]? = some value ∧
        field.EnumAllows value))

/-- Well-formed arguments of a schema. -/
structure Accepts (schema : InputSchema) (args : SharedArgs) : Prop where
  count : schema.fields.length ≤ 16
  fields : ∀ i field, schema.fields[i]? = some field → FieldOk args i field
  undeclared : ∀ i, schema.fields.length ≤ i → i < 16 →
    argTypeFromLayout args.layout i = .ok .null
  bounded : args.data.length = 0 ∨ ∃ i field, schema.fields[i]? = some field ∧
    args.present i ∧ args.data.length ≤ field.endOffset
  required : ∀ i < 64, schema.isRequired i → i < schema.fields.length ∧ args.present i

namespace SchemaValidator

theorem validateEnum_ok_iff (field : FieldDef) (value : UInt8) :
    validateEnum field value = .ok () ↔ field.EnumAllows value := by
  unfold validateEnum FieldDef.EnumAllows
  cases field.enumRange with
  | none => simp
  | some range =>
      obtain ⟨lo, hi⟩ := range
      constructor
      · intro h lo' hi' he
        cases he
        have hno : ¬ (value < lo ∨ value > hi) := by simpa using h
        exact ⟨UInt8.not_lt.mp fun hl => hno (.inl hl), UInt8.not_lt.mp fun hh => hno (.inr hh)⟩
      · intro h
        obtain ⟨hlo, hhi⟩ := h lo hi rfl
        have hno : ¬ (value < lo ∨ value > hi) :=
          not_or.mpr ⟨UInt8.not_lt.mpr hlo, UInt8.not_lt.mpr hhi⟩
        simp [hno]

theorem validateEnumByte_ok_iff (args : SharedArgs) (field : FieldDef) :
    validateEnumByte args field = .ok () ↔
      (field.enumRange.isSome → ∃ value, args.data[field.offset.toNat]? = some value ∧
        field.EnumAllows value) := by
  unfold validateEnumByte
  split
  · rename_i hsome
    cases args.data[field.offset.toNat]? with
    | none => simp [hsome]
    | some value => simp [hsome, validateEnum_ok_iff]
  · rename_i hnone
    simp [hnone]

/-- The mask after the field loop has passed `fields`. -/
def maskAfter (args : SharedArgs) : List FieldDef → Nat → UInt64 → UInt64
  | [], _, mask => mask
  | _ :: rest, idx, mask =>
      maskAfter args rest (idx + 1) (if args.present idx then mask ||| bit idx else mask)

/-- The data bound after the field loop has passed `fields`. -/
def boundAfter (args : SharedArgs) : List FieldDef → Nat → Nat → Nat
  | [], _, len => len
  | field :: rest, idx, len =>
      boundAfter args rest (idx + 1) (if args.present idx then max len field.endOffset else len)

theorem validateField_ok_iff (args : SharedArgs) (idx : Nat) (field : FieldDef)
    (mask m : UInt64) (len l : Nat) :
    validateField args idx field mask len = .ok (m, l) ↔
      idx < 16 ∧ FieldOk args idx field ∧
        m = (if args.present idx then mask ||| bit idx else mask) ∧
        l = (if args.present idx then max len field.endOffset else len) := by
  unfold validateField FieldOk SharedArgs.present
  simp only [guard_error_eq_ok_iff, bind_eq_ok_iff, not_le]
  refine and_congr_right fun _ => ?_
  cases argTypeFromLayout args.layout idx with
  | error e => simp
  | ok t =>
      by_cases hnull : t = .null
      · simp only [hnull, Except.ok.injEq, exists_eq_left', ite_true, Prod.mk.injEq]
        simp [@eq_comm _ m, @eq_comm _ l]
      · by_cases hty : t = field.fieldType
        · subst hty
          simp [hnull, Unique.exists_iff, validateEnumByte_ok_iff, and_assoc, @eq_comm _ m,
            @eq_comm _ l]
        · simp [hnull, hty]

theorem validateFields_ok_iff (args : SharedArgs) (fields : List FieldDef) (idx : Nat)
    (mask m : UInt64) (len l : Nat) :
    validateFields args fields idx mask len = .ok (m, l) ↔
      (∀ i field, fields[i]? = some field → idx + i < 16 ∧ FieldOk args (idx + i) field) ∧
        m = maskAfter args fields idx mask ∧ l = boundAfter args fields idx len := by
  induction fields generalizing idx mask len with
  | nil => simp [validateFields, maskAfter, boundAfter, @eq_comm _ m, @eq_comm _ l]
  | cons field rest ih =>
      simp only [validateFields, bind_eq_ok_iff, Prod.exists, validateField_ok_iff, ih,
        maskAfter, boundAfter]
      constructor
      · rintro ⟨mask', len', ⟨hidx, hfield, rfl, rfl⟩, hrest, hm, hl⟩
        refine ⟨?_, hm, hl⟩
        intro i f hf
        cases i with
        | zero =>
            simp only [List.getElem?_cons_zero, Option.some.injEq] at hf
            subst hf
            exact ⟨hidx, hfield⟩
        | succ i =>
            have h := hrest i f (by simpa using hf)
            rwa [Nat.add_assoc, Nat.add_comm 1 i] at h
      · rintro ⟨hall, hm, hl⟩
        have hhead := hall 0 field (by simp)
        refine ⟨_, _, ⟨hhead.1, hhead.2, rfl, rfl⟩, ?_, hm, hl⟩
        intro i f hf
        have h := hall (i + 1) f (by simpa using hf)
        rwa [Nat.add_comm i 1, ← Nat.add_assoc] at h

theorem validateUndeclared_ok_iff (args : SharedArgs) (indices : List Nat) :
    validateUndeclared args indices = .ok () ↔
      ∀ i ∈ indices, argTypeFromLayout args.layout i = .ok .null := by
  induction indices with
  | nil => simp [validateUndeclared]
  | cons idx rest ih =>
      simp only [validateUndeclared, bind_eq_ok_iff, guard_error_eq_ok_iff, ih, ne_eq,
        not_not, List.forall_mem_cons]
      constructor
      · rintro ⟨t, ht, rfl, hrest⟩
        exact ⟨ht, hrest⟩
      · rintro ⟨ht, hrest⟩
        exact ⟨_, ht, rfl, hrest⟩

theorem testBit_maskAfter (args : SharedArgs) (fields : List FieldDef) (idx : Nat)
    (mask : UInt64) (hcount : idx + fields.length ≤ 64) (b : Nat) :
    (maskAfter args fields idx mask).toNat.testBit b =
      (mask.toNat.testBit b ||
        (decide (idx ≤ b ∧ b < idx + fields.length) && args.present b)) := by
  induction fields generalizing idx mask with
  | nil =>
      have h : ¬ (idx ≤ b ∧ b < idx) := by omega
      simp [maskAfter, h]
  | cons field rest ih =>
      simp only [List.length_cons] at hcount
      rw [maskAfter, ih _ _ (by omega)]
      have hstep : (if args.present idx then mask ||| bit idx else mask).toNat.testBit b =
          (mask.toNat.testBit b || (decide (b = idx) && args.present idx)) := by
        cases args.present idx with
        | false => simp
        | true => simp [toNat_bit (show idx < 64 by omega), Nat.testBit_two_pow, eq_comm]
      rw [hstep, Bool.or_assoc]
      congr 1
      by_cases hb : b = idx
      · subst hb
        simp
      · have hrange : decide (idx + 1 ≤ b ∧ b < idx + 1 + rest.length) =
            decide (idx ≤ b ∧ b < idx + (field :: rest).length) := by
          rw [decide_eq_decide, List.length_cons]
          omega
        rw [hrange]
        simp [hb]

theorem le_boundAfter_iff (args : SharedArgs) (fields : List FieldDef) (idx len n : Nat) :
    n ≤ boundAfter args fields idx len ↔
      n ≤ len ∨ ∃ i field, fields[i]? = some field ∧ args.present (idx + i) ∧
        n ≤ field.endOffset := by
  induction fields generalizing idx len with
  | nil => simp [boundAfter]
  | cons field rest ih =>
      rw [boundAfter, ih]
      have hstep : n ≤ (if args.present idx then max len field.endOffset else len) ↔
          n ≤ len ∨ (args.present idx ∧ n ≤ field.endOffset) := by
        split <;> simp_all
      rw [hstep, or_assoc]
      refine or_congr_right ?_
      constructor
      · rintro (⟨hp, hn⟩ | ⟨i, f, hf, hp, hn⟩)
        · exact ⟨0, field, by simp, hp, hn⟩
        · exact ⟨i + 1, f, by simpa using hf, by rwa [Nat.add_comm i 1, ← Nat.add_assoc], hn⟩
      · rintro ⟨i, f, hf, hp, hn⟩
        cases i with
        | zero =>
            simp only [List.getElem?_cons_zero, Option.some.injEq] at hf
            subst hf
            exact .inl ⟨hp, hn⟩
        | succ i =>
            exact .inr ⟨i, f, by simpa using hf,
              by rwa [Nat.add_comm i 1, ← Nat.add_assoc] at hp, hn⟩

theorem validateRequired_ok_iff (schema : InputSchema) (mask : UInt64) :
    validateRequired schema mask = .ok () ↔
      ∀ i < 64, schema.isRequired i → mask.toNat.testBit i := by
  have hreq : ∀ i < 64, schema.isRequired i = schema.required.toNat.testBit i := by
    intro i hi
    rw [InputSchema.isRequired, if_neg (by omega), Bool.eq_iff_iff, bne_iff_ne,
      and_bit_ne_zero_iff _ hi]
  have hzero : schema.required &&& ~~~ mask = 0 ↔
      ∀ i < 64, schema.required.toNat.testBit i → mask.toNat.testBit i := by
    rw [← UInt64.toBitVec_inj]
    constructor
    · intro h i hi hr
      have hbit := congrArg (fun w : BitVec 64 => w.getLsbD i) h
      simp only [UInt64.toBitVec_and, UInt64.toBitVec_not, BitVec.getLsbD_and,
        BitVec.getLsbD_not] at hbit
      have hr' : schema.required.toBitVec.getLsbD i = true := hr
      have hm : mask.toBitVec.getLsbD i = true := by simpa [hr', hi] using hbit
      exact hm
    · intro h
      apply BitVec.eq_of_getLsbD_eq
      intro i hi
      have himp : schema.required.toBitVec.getLsbD i = true →
          mask.toBitVec.getLsbD i = true := h i hi
      cases hr : schema.required.toBitVec.getLsbD i with
      | false => simp [hr]
      | true => simp [hr, himp hr, hi]
  unfold validateRequired
  simp only [guard_error_eq_ok_iff, ne_eq, not_not, and_true, hzero]
  exact forall₂_congr fun i hi => by rw [hreq i hi]

theorem validateSharedArgs_ok_iff (schema : InputSchema) (args : SharedArgs) :
    validateSharedArgs schema args = .ok () ↔ Accepts schema args := by
  have hunfold : validateSharedArgs schema args = .ok () ↔
      (∀ i field, schema.fields[i]? = some field → i < 16 ∧ FieldOk args i field) ∧
      (∀ i ∈ List.range' schema.fields.length (16 - schema.fields.length),
        argTypeFromLayout args.layout i = .ok .null) ∧
      args.data.length ≤ boundAfter args schema.fields 0 0 ∧
      ∀ i < 64, schema.isRequired i →
        (maskAfter args schema.fields 0 0).toNat.testBit i := by
    simp only [validateSharedArgs, bind_eq_ok_iff, Prod.exists, validateFields_ok_iff,
      Unique.exists_iff, guard_error_eq_ok_iff, not_lt, gt_iff_lt, Nat.zero_add]
    constructor
    · rintro ⟨m, l, ⟨hall, rfl, rfl⟩, hund, hlen, hreq⟩
      exact ⟨hall, (validateUndeclared_ok_iff _ _).mp hund, hlen,
        (validateRequired_ok_iff _ _).mp hreq⟩
    · rintro ⟨hall, hund, hlen, hreq⟩
      exact ⟨_, _, ⟨hall, rfl, rfl⟩, (validateUndeclared_ok_iff _ _).mpr hund, hlen,
        (validateRequired_ok_iff _ _).mpr hreq⟩
  rw [hunfold]
  constructor
  · rintro ⟨hall, hund, hlen, hreq⟩
    have hcount : schema.fields.length ≤ 16 := by
      by_contra hlong
      have hlt : 16 < schema.fields.length := by omega
      exact absurd (hall 16 _ (List.getElem?_eq_getElem hlt)).1 (by omega)
    refine ⟨hcount, fun i f hf => (hall i f hf).2, ?_, ?_, ?_⟩
    · intro i hlo hhi
      exact hund i (by rw [List.mem_range'_1]; omega)
    · rcases (le_boundAfter_iff _ _ _ _ _).mp hlen with hzero | ⟨i, f, hf, hp, hn⟩
      · exact .inl (by omega)
      · exact .inr ⟨i, f, hf, by simpa using hp, hn⟩
    · intro i hi hr
      have hbit := hreq i hi hr
      rw [testBit_maskAfter _ _ _ _ (by omega)] at hbit
      simpa using hbit
  · intro h
    have hcount := h.count
    refine ⟨?_, ?_, ?_, ?_⟩
    · intro i f hf
      have hi : i < schema.fields.length := (List.getElem?_eq_some_iff.mp hf).1
      exact ⟨by omega, h.fields i f hf⟩
    · intro i hi
      rw [List.mem_range'_1] at hi
      exact h.undeclared i hi.1 (by omega)
    · rw [le_boundAfter_iff]
      rcases h.bounded with hzero | ⟨i, f, hf, hp, hn⟩
      · exact .inl (by omega)
      · exact .inr ⟨i, f, hf, by simpa using hp, hn⟩
    · intro i hi hr
      rw [testBit_maskAfter _ _ _ _ (by omega)]
      simpa using h.required i hi hr

end SchemaValidator
end Dcp
