import Dcp.Dispatch.Schema
import Dcp.Library.Layout

/-!
How a handler reads its arguments: values of a fixed width at an offset of the data, each behind a
check of the bounds. An end that overflows a machine word is past the data as well.
-/

namespace Dcp
open Library

namespace SharedArgs

def readBytesAt (args : SharedArgs) (offset len : Nat) : Except DCPError (List UInt8) :=
  if offset + len > args.data.length then .error .outOfBounds
  else .ok (slice args.data offset (offset + len))

def readU32At (args : SharedArgs) (offset : Nat) : Except DCPError UInt32 :=
  (args.readBytesAt offset 4).map fun bytes => .ofNat (ofLeBytes bytes)

def readI32At (args : SharedArgs) (offset : Nat) : Except DCPError Int32 :=
  (args.readU32At offset).map UInt32.toInt32

/-- The eight bytes that the reader of 64-bit integers takes. -/
def readU64At (args : SharedArgs) (offset : Nat) : Except DCPError UInt64 :=
  (args.readBytesAt offset 8).map fun bytes => .ofNat (ofLeBytes bytes)

def readI64At (args : SharedArgs) (offset : Nat) : Except DCPError Int64 :=
  (args.readU64At offset).map UInt64.toInt64

def readBoolAt (args : SharedArgs) (offset : Nat) : Except DCPError Bool :=
  match args.data[offset]? with
  | none => .error .outOfBounds
  | some byte => .ok (byte != 0)

end SharedArgs

theorem toInt_toInt32 (n : Int) (h : -2147483648 ≤ n ∧ n < 2147483648) :
    (UInt32.ofNat (n % 4294967296).toNat).toInt32.toInt = n := by
  have hnat : (UInt32.ofNat (n % 4294967296).toNat).toNat = (n % 4294967296).toNat :=
    UInt32.toNat_ofNat_of_lt' (by simp only [UInt32.size]; omega)
  have hint : (UInt32.ofNat (n % 4294967296).toNat).toInt32.toInt =
      (UInt32.ofNat (n % 4294967296).toNat).toBitVec.toInt := rfl
  rw [hint, BitVec.toInt_eq_toNat_cond, UInt32.toNat_toBitVec, hnat]
  split <;> omega

theorem toInt_toInt64 (n : Int) (h : -9223372036854775808 ≤ n ∧ n < 9223372036854775808) :
    (UInt64.ofNat (n % 18446744073709551616).toNat).toInt64.toInt = n := by
  have hnat : (UInt64.ofNat (n % 18446744073709551616).toNat).toNat =
      (n % 18446744073709551616).toNat :=
    UInt64.toNat_ofNat_of_lt' (by simp only [UInt64.size]; omega)
  have hint : (UInt64.ofNat (n % 18446744073709551616).toNat).toInt64.toInt =
      (UInt64.ofNat (n % 18446744073709551616).toNat).toBitVec.toInt := rfl
  rw [hint, BitVec.toInt_eq_toNat_cond, UInt64.toNat_toBitVec, hnat]
  split <;> omega

namespace SharedArgs
variable {args : SharedArgs} {offset : Nat}

theorem readBytesAt_of_slice {bytes : List UInt8}
    (hend : offset + bytes.length ≤ args.data.length)
    (h : slice args.data offset (offset + bytes.length) = bytes) :
    args.readBytesAt offset bytes.length = .ok bytes := by
  rw [readBytesAt, if_neg (by omega), h]

/-- A 32-bit integer is read from the bytes it is written as. -/
theorem readI32At_of_bytes {n : Int} (hn : -2147483648 ≤ n ∧ n < 2147483648)
    (h : args.readBytesAt offset 4 = .ok (leBytes 4 (n % 4294967296).toNat)) :
    ∃ i, args.readI32At offset = .ok i ∧ i.toInt = n := by
  have hlt : (n % 4294967296).toNat < 256 ^ 4 := by omega
  refine ⟨_, ?_, toInt_toInt32 n hn⟩
  rw [readI32At, readU32At, h, Except.map, Except.map, ofLeBytes_leBytes 4 hlt]

theorem readI64At_of_bytes {n : Int} (hn : -9223372036854775808 ≤ n ∧ n < 9223372036854775808)
    (h : args.readBytesAt offset 8 = .ok (leBytes 8 (n % 18446744073709551616).toNat)) :
    ∃ i, args.readI64At offset = .ok i ∧ i.toInt = n := by
  have hlt : (n % 18446744073709551616).toNat < 256 ^ 8 := by omega
  refine ⟨_, ?_, toInt_toInt64 n hn⟩
  rw [readI64At, readU64At, h, Except.map, Except.map, ofLeBytes_leBytes 8 hlt]

end SharedArgs
end Dcp
