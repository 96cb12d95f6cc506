import Dcp.Library.Json.RoundTrip

/-!
The grammar of a JSON string literal with the text it stands for. A literal is read in one way only,
and it ends at the first quote that no escape holds. Whatever is escaped so that a reader gets it
back is a literal of what was escaped.
-/

namespace Library.Json

/-- The escapes of one letter, with what they stand for. -/
def shortEscapes : List (Char × Char) :=
  [('"', '"'), ('\\', '\\'), ('/', '/'), ('b', '\x08'), ('f', '\x0c'), ('n', '\n'), ('r', '\r'),
    ('t', '\t')]

/-- The number that four hexadecimal digits stand for. -/
def codeUnit : List Char → Option Nat
  | [a, b, c, d] => do
      some (((← hexValue a) * 16 + (← hexValue b)) * 256 + (← hexValue c) * 16 + (← hexValue d))
  | _ => none

/-- A piece of a literal and the character that it stands for. -/
inductive Piece : List Char → Char → Prop
  | plain {c : Char} (hquote : c ≠ '"') (hslash : c ≠ '\\') (hcontrol : 32 ≤ c.toNat) : Piece [c] c
  | short {letter c : Char} (h : (letter, c) ∈ shortEscapes) : Piece ['\\', letter] c
  | unit {digits : List Char} {n : Nat} (h : codeUnit digits = some n)
      (hsurrogate : ¬ (55296 ≤ n ∧ n < 57344)) : Piece ('\\' :: 'u' :: digits) (Char.ofNat n)
  | pair {high low : List Char} {n m : Nat} (hhigh : codeUnit high = some n)
      (hlow : codeUnit low = some m) (hn : 55296 ≤ n ∧ n < 56320) (hm : 56320 ≤ m ∧ m < 57344) :
      Piece ('\\' :: 'u' :: (high ++ '\\' :: 'u' :: low))
        (Char.ofNat (65536 + (n - 55296) * 1024 + (m - 56320)))

/-- What stands between the quotes of a literal, and the text that it stands for. -/
inductive Pieces : List Char → List Char → Prop
  | nil : Pieces [] []
  | cons {piece body text : List Char} {c : Char} (head : Piece piece c)
      (tail : Pieces body text) : Pieces (piece ++ body) (c :: text)

/-- One string literal, and the text that it stands for. -/
def Literal (literal text : List Char) : Prop :=
  ∃ body, literal = '"' :: (body ++ ['"']) ∧ Pieces body text

theorem length_codeUnit {digits : List Char} {n : Nat} (h : codeUnit digits = some n) :
    digits.length = 4 := by
  match digits with
  | [_, _, _, _] => rfl

theorem codeUnit_unique {digits digits' rest rest' : List Char} {n n' : Nat}
    (h : codeUnit digits = some n) (h' : codeUnit digits' = some n')
    (heq : digits ++ rest = digits' ++ rest') : n = n' ∧ rest = rest' := by
  obtain ⟨rfl, hrest⟩ :=
    List.append_inj heq ((length_codeUnit h).trans (length_codeUnit h').symm)
  exact ⟨Option.some_inj.mp (h.symm.trans h'), hrest⟩

theorem letter_ne_u {letter c : Char} (h : (letter, c) ∈ shortEscapes) : letter ≠ 'u' := by
  rintro rfl
  revert h
  simp [shortEscapes]

theorem short_unique {letter c c' : Char} (h : (letter, c) ∈ shortEscapes)
    (h' : (letter, c') ∈ shortEscapes) : c = c' := by
  have hkeys : (shortEscapes.map Prod.fst).Nodup := by decide
  exact congrArg Prod.snd (List.inj_on_of_nodup_map hkeys h h' rfl)

/-- No piece begins another, and a piece stands for one character. -/
theorem Piece.unique {piece piece' rest rest' : List Char} {c c' : Char} (h : Piece piece c)
    (h' : Piece piece' c') (heq : piece ++ rest = piece' ++ rest') :
    c = c' ∧ rest = rest' := by
  cases h with
  | plain hquote hslash hcontrol =>
      cases h' with
      | plain => exact List.cons.inj heq
      | short | unit | pair => exact absurd (List.cons.inj heq).1 hslash
  | short hmem =>
      cases h' with
      | plain _ hslash' => exact absurd (List.cons.inj heq).1.symm hslash'
      | short hmem' =>
          obtain ⟨rfl, hrest⟩ := List.cons.inj (List.cons.inj heq).2
          exact ⟨short_unique hmem hmem', hrest⟩
      | unit | pair =>
          exact absurd (List.cons.inj (List.cons.inj heq).2).1 (letter_ne_u hmem)
  | unit hunit hsurrogate =>
      cases h' with
      | plain _ hslash' => exact absurd (List.cons.inj heq).1.symm hslash'
      | short hmem' =>
          exact absurd (List.cons.inj (List.cons.inj heq).2).1.symm (letter_ne_u hmem')
      | unit hunit' =>
          simp only [List.cons_append, List.cons.injEq, true_and] at heq
          obtain ⟨rfl, hrest⟩ := codeUnit_unique hunit hunit' heq
          exact ⟨rfl, hrest⟩
      | pair hhigh' _ hn' =>
          simp only [List.cons_append, List.append_assoc, List.cons.injEq, true_and] at heq
          obtain ⟨rfl, -⟩ := codeUnit_unique hunit hhigh' heq
          omega
  | pair hhigh hlow hn hm =>
      cases h' with
      | plain _ hslash' => exact absurd (List.cons.inj heq).1.symm hslash'
      | short hmem' =>
          exact absurd (List.cons.inj (List.cons.inj heq).2).1.symm (letter_ne_u hmem')
      | unit hunit' hsurrogate' =>
          simp only [List.cons_append, List.append_assoc, List.cons.injEq, true_and] at heq
          obtain ⟨rfl, -⟩ := codeUnit_unique hhigh hunit' heq
          omega
      | pair hhigh' hlow' =>
          simp only [List.cons_append, List.append_assoc, List.cons.injEq, true_and] at heq
          obtain ⟨rfl, htail⟩ := codeUnit_unique hhigh hhigh' heq
          simp only [List.cons.injEq, true_and] at htail
          obtain ⟨rfl, hrest⟩ := codeUnit_unique hlow hlow' htail
          exact ⟨rfl, hrest⟩

theorem Piece.head {piece : List Char} {c : Char} (h : Piece piece c) :
    ∃ d rest, piece = d :: rest ∧ d ≠ '"' := by
  cases h with
  | plain hquote => exact ⟨_, _, rfl, hquote⟩
  | short | unit | pair => exact ⟨_, _, rfl, by decide⟩

theorem Pieces.unique {body text text' : List Char} (h : Pieces body text)
    (h' : Pieces body text') : text = text' := by
  induction h generalizing text' with
  | nil =>
      generalize hbody : [] = body at h'
      cases h' with
      | nil => rfl
      | cons head tail =>
          obtain ⟨d, rest, rfl, -⟩ := head.head
          cases hbody
  | @cons piece body text c head tail ih =>
      generalize hbody : piece ++ body = whole at h'
      cases h' with
      | nil =>
          obtain ⟨d, rest, rfl, -⟩ := head.head
          cases hbody
      | cons head' tail' =>
          obtain ⟨rfl, rfl⟩ := head.unique head' hbody
          rw [ih tail']

/-- No quote of the text between the quotes could end the literal. -/
theorem Pieces.no_quote {front text : List Char} (h : Pieces front text) {back text' : List Char}
    (h' : Pieces (front ++ '"' :: back) text') : False := by
  induction h generalizing text' with
  | nil =>
      generalize hbody : [] ++ '"' :: back = body at h'
      cases h' with
      | nil => cases hbody
      | cons head tail =>
          obtain ⟨d, rest, rfl, hd⟩ := head.head
          exact hd (List.cons.inj hbody).1.symm
  | @cons piece body text c head tail ih =>
      generalize hbody : piece ++ body ++ '"' :: back = whole at h'
      cases h' with
      | nil =>
          obtain ⟨d, rest, rfl, -⟩ := head.head
          cases hbody
      | cons head' tail' =>
          rw [List.append_assoc] at hbody
          obtain ⟨-, rfl⟩ := head.unique head' hbody
          exact ih tail'

theorem Literal.unique {literal text text' : List Char} (h : Literal literal text)
    (h' : Literal literal text') : text = text' := by
  obtain ⟨body, rfl, hbody⟩ := h
  obtain ⟨body', heq, hbody'⟩ := h'
  obtain rfl := (List.append_inj' (List.cons.inj heq).2 rfl).1
  exact hbody.unique hbody'

/-- A literal does not begin another one. -/
theorem Literal.whole {literal rest text text' : List Char} (h : Literal literal text)
    (h' : Literal (literal ++ rest) text') : rest = [] := by
  obtain ⟨body, rfl, hbody⟩ := h
  obtain ⟨body', heq, hbody'⟩ := h'
  rcases List.eq_nil_or_concat rest with rfl | ⟨front, last, rfl⟩
  · rfl
  · have htail : body ++ '"' :: front ++ [last] = body' ++ ['"'] := by
      simpa using heq
    obtain ⟨rfl, -⟩ := List.append_inj' htail rfl
    exact (hbody.no_quote hbody').elim

theorem unescape_unit (rest : List Char) :
    unescape ('u' :: rest) = (codeUnit (rest.take 4)).bind fun n =>
      if 55296 ≤ n ∧ n < 57344 then none else some (Char.ofNat n, rest.drop 4) := by
  have hletter : ¬ ('u' = '"' ∨ 'u' = '\\' ∨ 'u' = '/') := by decide
  rw [unescape, if_neg hletter, if_neg (by decide), if_neg (by decide), if_neg (by decide),
    if_neg (by decide), if_neg (by decide), if_pos rfl]
  generalize rest.take 4 = digits
  rcases digits with _ | ⟨a, _ | ⟨b, _ | ⟨c, _ | ⟨d, _ | ⟨e, more⟩⟩⟩⟩⟩
  case cons.cons.cons.cons.nil =>
    cases ha : hexValue a <;> cases hb : hexValue b <;> cases hc : hexValue c <;>
      cases hd : hexValue d <;> simp [codeUnit, ha, hb, hc, hd]
  all_goals rfl

/-- What a reader gets back from behind a backslash makes a piece with it. -/
theorem piece_of_unescape {tail : List Char} {c : Char} (h : unescape tail = some (c, [])) :
    Piece ('\\' :: tail) c := by
  match tail with
  | [] => cases h
  | letter :: rest =>
      by_cases hletter : letter = 'u'
      · subst hletter
        rw [unescape_unit, Option.bind_eq_some_iff] at h
        obtain ⟨n, hn, h⟩ := h
        split at h
        · cases h
        · next hsurrogate =>
            obtain ⟨rfl, hdrop⟩ := Prod.mk.inj (Option.some.inj h)
            rw [List.take_of_length_le (List.drop_eq_nil_iff.mp hdrop)] at hn
            exact .unit hn hsurrogate
      · rw [unescape] at h
        split_ifs at h with hself hb ht hn hf hr
        · obtain ⟨rfl, rfl⟩ := Prod.mk.inj (Option.some.inj h)
          rcases hself with rfl | rfl | rfl <;> exact .short (by decide)
        all_goals
          subst letter
          obtain ⟨rfl, rfl⟩ := Prod.mk.inj (Option.some.inj h)
          exact .short (by decide)

/-- A text whose characters are escaped so that a reader gets them back is a literal in quotes. -/
theorem literal_quoted {write : Char → List Char} (hwrite : Escapes write) (text : List Char) :
    Literal (quoted write text) text := by
  refine ⟨text.flatMap write, rfl, ?_⟩
  induction text with
  | nil => exact .nil
  | cons c text ih =>
      rw [List.flatMap_cons]
      refine .cons ?_ ih
      rcases hwrite c with ⟨hself, hquote, hslash, hcontrol⟩ | ⟨tail, htail, hread⟩
      · rw [hself]
        exact .plain hquote hslash (Nat.le_of_not_lt hcontrol)
      · have hend := hread []
        rw [List.append_nil] at hend
        rw [htail]
        exact piece_of_unescape hend

theorem hexValue_control {c : Char} (h : c.toNat < 32) : hexValue c = none := by
  have hbelow : ∀ d : Char, 32 ≤ d.toNat → ¬ d ≤ c := by
    intro d hd hle
    have hnat : d.toNat ≤ c.toNat := hle
    omega
  rw [hexValue, if_neg fun h => hbelow '0' (by decide) h.1,
    if_neg fun h => hbelow 'a' (by decide) h.1, if_neg fun h => hbelow 'A' (by decide) h.1]

theorem codeUnit_no_control {digits : List Char} {n : Nat} (h : codeUnit digits = some n) :
    ∀ d ∈ digits, 32 ≤ d.toNat := by
  intro d hd
  by_contra hlow
  have hnone := hexValue_control (Nat.lt_of_not_le hlow)
  match digits with
  | [a, b, c, e] =>
      simp only [List.mem_cons, List.not_mem_nil, or_false] at hd
      obtain rfl | rfl | rfl | rfl := hd <;> simp [codeUnit, hnone] at h

theorem Piece.no_control {piece : List Char} {c : Char} (h : Piece piece c) :
    ∀ d ∈ piece, 32 ≤ d.toNat := by
  have hescape : ∀ letter : Char, letter ∈ 'u' :: shortEscapes.map Prod.fst →
      32 ≤ '\\'.toNat ∧ 32 ≤ letter.toNat := by simp [shortEscapes]
  have hu := hescape 'u' List.mem_cons_self
  cases h with
  | plain _ _ hcontrol => exact List.forall_mem_singleton.mpr hcontrol
  | short hmem =>
      have hletter := hescape _ (List.mem_cons_of_mem _ (List.mem_map_of_mem hmem))
      simpa using hletter
  | unit hunit =>
      simp only [List.forall_mem_cons]
      exact ⟨hu.1, hu.2, codeUnit_no_control hunit⟩
  | pair hhigh hlow =>
      simp only [List.forall_mem_cons, List.forall_mem_append]
      exact ⟨hu.1, hu.2, codeUnit_no_control hhigh, hu.1, hu.2, codeUnit_no_control hlow⟩

/-- No control character stands in a literal as it is. -/
theorem Literal.no_control {literal text : List Char} (h : Literal literal text) :
    ∀ d ∈ literal, 32 ≤ d.toNat := by
  obtain ⟨body, rfl, hbody⟩ := h
  have hpieces : ∀ d ∈ body, 32 ≤ d.toNat := by
    induction hbody with
    | nil => exact fun d hd => absurd hd List.not_mem_nil
    | cons head _ ih => exact List.forall_mem_append.mpr ⟨head.no_control, ih⟩
  rw [List.forall_mem_cons, List.forall_mem_append, List.forall_mem_singleton]
  exact ⟨by decide, hpieces, by decide⟩

end Library.Json
