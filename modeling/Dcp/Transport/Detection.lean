import Mathlib.Data.List.Basic
import Mathlib.Tactic

/-!
The protocol of a connection, detected from the bytes of its first read. The first byte that is no
whitespace decides; a read without one is taken for binary, whatever comes after it.
-/

namespace Dcp

inductive ProtocolMode
  | mcpJson
  | dcpBinary
  deriving DecidableEq

def dcpMagicBytes : List UInt8 := [0x44, 0x43, 0x50, 0x01]

def isAsciiWhitespace (b : UInt8) : Bool :=
  b == 0x20 || b == 0x09 || b == 0x0A || b == 0x0C || b == 0x0D

def firstNonWhitespace (bytes : List UInt8) : Option UInt8 :=
  bytes.find? fun b => !isAsciiWhitespace b

def detectProtocol (firstBytes : List UInt8) : ProtocolMode :=
  if firstBytes.isEmpty then .mcpJson
  else if firstBytes.length ≥ 4 ∧ firstBytes.take 4 = dcpMagicBytes then .dcpBinary
  else
    match firstNonWhitespace firstBytes with
    | some b => if b = 0x7B ∨ b = 0x5B then .mcpJson else .dcpBinary
    | none => .dcpBinary

/-- A text of JSON begins with a brace or a bracket, after whitespace. -/
def BeginsJson (bytes : List UInt8) : Prop :=
  firstNonWhitespace bytes = some 0x7B ∨ firstNonWhitespace bytes = some 0x5B

theorem detectProtocol_eq_mcpJson_iff {bytes : List UInt8} (h : bytes ≠ []) :
    detectProtocol bytes = .mcpJson ↔ BeginsJson bytes := by
  rw [detectProtocol, if_neg (mt List.isEmpty_iff.mp h), BeginsJson]
  split
  · next hmagic =>
      -- the magic begins with a byte that is neither whitespace nor the start of JSON
      have hfirst : firstNonWhitespace bytes = some 0x44 := by
        rw [← List.take_append_drop 4 bytes, hmagic.2]
        rfl
      rw [hfirst]
      exact iff_of_false nofun (by decide)
  · cases firstNonWhitespace bytes with
    | none => simp
    | some b =>
        simp only [ite_eq_left_iff, reduceCtorEq, imp_false, not_not, Option.some.injEq]

/-- A byte that is no whitespace stays the first one, whatever comes after. -/
theorem firstNonWhitespace_append (first rest : List UInt8) :
    firstNonWhitespace (first ++ rest) = (firstNonWhitespace first).or (firstNonWhitespace rest) :=
  List.find?_append

theorem firstNonWhitespace_eq_none_iff {bytes : List UInt8} :
    firstNonWhitespace bytes = none ↔ ∀ b ∈ bytes, isAsciiWhitespace b = true := by
  rw [firstNonWhitespace, List.find?_eq_none]
  simp

theorem ProtocolMode.eq_iff {mode mode' : ProtocolMode} :
    mode = mode' ↔ (mode = .mcpJson ↔ mode' = .mcpJson) := by
  cases mode <;> cases mode' <;> simp

/-- What is detected from a first read is what the whole stream shows, unless the read is only
whitespace in front of JSON. -/
theorem detectProtocol_stable_iff {stream first : List UInt8} (hfront : first <+: stream)
    (hne : first ≠ []) :
    detectProtocol first = detectProtocol stream ↔
      (∃ b ∈ first, isAsciiWhitespace b = false) ∨ ¬ BeginsJson stream := by
  obtain ⟨rest, rfl⟩ := hfront
  rw [ProtocolMode.eq_iff, detectProtocol_eq_mcpJson_iff hne,
    detectProtocol_eq_mcpJson_iff (List.append_ne_nil_of_left_ne_nil hne rest)]
  cases hfound : firstNonWhitespace first with
  | none =>
      have hblank := firstNonWhitespace_eq_none_iff.mp hfound
      have hnone : ¬ ∃ b ∈ first, isAsciiWhitespace b = false := by
        rintro ⟨b, hb, hb'⟩
        rw [hblank b hb] at hb'
        cases hb'
      have hjson : ¬ BeginsJson first := by
        rw [BeginsJson, hfound]
        exact fun h => h.elim nofun nofun
      rw [or_iff_right hnone, iff_false_left hjson]
  | some b =>
      have hsome : ∃ b ∈ first, isAsciiWhitespace b = false := by
        refine ⟨b, List.mem_of_find?_eq_some hfound, ?_⟩
        simpa using List.find?_some hfound
      refine iff_of_true ?_ (.inl hsome)
      rw [BeginsJson, BeginsJson, firstNonWhitespace_append, hfound]
      rfl

theorem detectProtocol_stable_brace :
    detectProtocol [0x0A, 0x7B] = detectProtocol [0x0A, 0x7B, 0x7D] :=
  (detectProtocol_stable_iff ⟨[0x7D], rfl⟩ (by decide)).mpr (.inl (by decide))

/-- A line break that comes alone in front of a text of JSON. -/
theorem detectProtocol_line_break :
    [0x0A] <+: [0x0A, 0x7B] ∧ detectProtocol [0x0A] ≠ detectProtocol [0x0A, 0x7B] := by
  decide

end Dcp
