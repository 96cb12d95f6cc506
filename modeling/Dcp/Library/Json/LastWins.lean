import Dcp.Library.Json.Distinct
import Dcp.Library.Json.Document

/-!
Reading a document keeps the last member with a key. The others are hidden: what holds of everything
that occurs in a document is what holds of the value that is read and of the hidden members.
-/

namespace Library

namespace Members

/-- Inserting keeps the members with other keys. -/
theorem forall_mem_insert {P : String × Value → Prop} {acc : Members} (hkeys : acc.keys.Nodup)
    {key : String} {value : Value} :
    (∀ m ∈ acc.insert key value, P m) ↔ P (key, value) ∧ ∀ m ∈ acc, m.1 ≠ key → P m := by
  induction acc with
  | nil => simp [insert]
  | cons m rest ih =>
      obtain ⟨k, v⟩ := m
      rw [keys, List.map_cons, List.nodup_cons] at hkeys
      rw [insert]
      by_cases hk : k = key
      · subst hk
        have hother : ∀ m ∈ rest, m.1 ≠ k := by
          intro m hm heq
          have hmem : m.1 ∈ List.map Prod.fst rest := List.mem_map_of_mem hm
          rw [heq] at hmem
          exact hkeys.1 hmem
        rw [if_pos rfl, List.forall_mem_cons, List.forall_mem_cons]
        exact and_congr_right fun _ =>
          ⟨fun h => ⟨fun hne => absurd rfl hne, fun m hm _ => h m hm⟩,
            fun h m hm => h.2 m hm (hother m hm)⟩
      · rw [if_neg hk, List.forall_mem_cons, List.forall_mem_cons, ih hkeys.2]
        exact ⟨fun h => ⟨h.2.1, fun _ => h.1, h.2.2⟩, fun h => ⟨h.2.1 hk, h.1, h.2.2⟩⟩

end Members

namespace Document

mutual

/-- The string literals in the document, keys included. -/
def literals : Document → List String
  | .string s => [s]
  | .seq items _ => literalsItems items
  | .map members _ => literalsMembers members
  | .null | .bool _ | .number _ | .error _ => []

def literalsItems : List Document → List String
  | [] => []
  | d :: rest => d.literals ++ literalsItems rest

def literalsMembers : List (String × Document) → List String
  | [] => []
  | (k, d) :: rest => k :: (d.literals ++ literalsMembers rest)

end

mutual

/-- The members of the objects in the document, at any depth. -/
def allMembers : Document → List (String × Document)
  | .seq items _ => allMembersItems items
  | .map members _ => allMembersMembers members
  | .string _ | .null | .bool _ | .number _ | .error _ => []

def allMembersItems : List Document → List (String × Document)
  | [] => []
  | d :: rest => d.allMembers ++ allMembersItems rest

def allMembersMembers : List (String × Document) → List (String × Document)
  | [] => []
  | (k, d) :: rest => (k, d) :: (d.allMembers ++ allMembersMembers rest)

end

mutual

/-- The members that a later member of the same object hides. -/
def hidden : Document → List (String × Document)
  | .seq items _ => hiddenItems items
  | .map members _ => hiddenMembers members
  | .string _ | .null | .bool _ | .number _ | .error _ => []

def hiddenItems : List Document → List (String × Document)
  | [] => []
  | d :: rest => d.hidden ++ hiddenItems rest

def hiddenMembers : List (String × Document) → List (String × Document)
  | [] => []
  | (k, d) :: rest =>
      (if k ∈ rest.map Prod.fst then [(k, d)] else d.hidden) ++ hiddenMembers rest

end

section Inversion

theorem build_seq {items : List Document} {stop : Option String} {v : Value}
    (h : (seq items stop).build = .ok v) :
    ∃ values, buildItems items stop = .ok values ∧ v = .array values := by
  rw [build] at h
  cases hitems : buildItems items stop with
  | error e =>
      rw [hitems] at h
      cases h
  | ok values =>
      rw [hitems] at h
      cases h
      exact ⟨values, rfl, rfl⟩

theorem build_map {members : List (String × Document)} {stop : Option String} {v : Value}
    (h : (map members stop).build = .ok v) :
    ∃ kept, buildMembers members stop [] = .ok kept ∧ v = .object kept := by
  rw [build] at h
  cases hmembers : buildMembers members stop [] with
  | error e =>
      rw [hmembers] at h
      cases h
  | ok kept =>
      rw [hmembers] at h
      cases h
      exact ⟨kept, rfl, rfl⟩

theorem buildItems_cons {d : Document} {rest : List Document} {stop : Option String}
    {values : List Value} (h : buildItems (d :: rest) stop = .ok values) :
    ∃ v vs, d.build = .ok v ∧ buildItems rest stop = .ok vs ∧ values = v :: vs := by
  rw [buildItems] at h
  cases hd : d.build with
  | error e =>
      rw [hd] at h
      cases h
  | ok v =>
      cases hrest : buildItems rest stop with
      | error e =>
          rw [hd, hrest] at h
          cases h
      | ok vs =>
          rw [hd, hrest] at h
          cases h
          exact ⟨v, vs, rfl, rfl, rfl⟩

theorem buildMembers_cons {k : String} {d : Document} {rest : List (String × Document)}
    {stop : Option String} {acc kept : Members}
    (h : buildMembers ((k, d) :: rest) stop acc = .ok kept) :
    ∃ v, d.build = .ok v ∧ buildMembers rest stop (acc.insert k v) = .ok kept := by
  rw [buildMembers] at h
  cases hd : d.build with
  | error e =>
      rw [hd] at h
      cases h
  | ok v =>
      rw [hd] at h
      exact ⟨v, rfl, h⟩

end Inversion

mutual

/-- No object of the document repeats a key, at any depth. -/
def distinct : Document → Bool
  | .seq items _ => distinctItems items
  | .map members _ => decide (members.map Prod.fst).Nodup && distinctMembers members
  | .null | .bool _ | .number _ | .string _ | .error _ => true

def distinctItems : List Document → Bool
  | [] => true
  | d :: rest => d.distinct && distinctItems rest

def distinctMembers : List (String × Document) → Bool
  | [] => true
  | (_, d) :: rest => d.distinct && distinctMembers rest

end

section Success

theorem exists_build_seq_iff {items : List Document} {stop : Option String} :
    (∃ v, (seq items stop).build = .ok v) ↔ ∃ values, buildItems items stop = .ok values := by
  constructor
  · rintro ⟨v, h⟩
    obtain ⟨values, hitems, -⟩ := build_seq h
    exact ⟨values, hitems⟩
  · rintro ⟨values, h⟩
    exact ⟨.array values, by rw [build, h]; rfl⟩

theorem exists_build_map_iff {members : List (String × Document)} {stop : Option String} :
    (∃ v, (map members stop).build = .ok v) ↔
      ∃ kept, buildMembers members stop [] = .ok kept := by
  constructor
  · rintro ⟨v, h⟩
    obtain ⟨kept, hmembers, -⟩ := build_map h
    exact ⟨kept, hmembers⟩
  · rintro ⟨kept, h⟩
    exact ⟨.object kept, by rw [build, h]; rfl⟩

theorem exists_buildItems_cons_iff {d : Document} {rest : List Document} {stop : Option String} :
    (∃ values, buildItems (d :: rest) stop = .ok values) ↔
      (∃ v, d.build = .ok v) ∧ ∃ values, buildItems rest stop = .ok values := by
  constructor
  · rintro ⟨values, h⟩
    obtain ⟨v, vs, hd, hrest, -⟩ := buildItems_cons h
    exact ⟨⟨v, hd⟩, vs, hrest⟩
  · rintro ⟨⟨v, hd⟩, vs, hrest⟩
    exact ⟨v :: vs, by rw [buildItems, hd, hrest]; rfl⟩

/-- Whether the members can be read does not depend on those before them. -/
theorem exists_buildMembers_iff {members : List (String × Document)} {stop : Option String}
    (acc acc' : Members) :
    (∃ kept, buildMembers members stop acc = .ok kept) ↔
      ∃ kept, buildMembers members stop acc' = .ok kept := by
  induction members generalizing acc acc' with
  | nil =>
      cases stop with
      | none => exact iff_of_true ⟨acc, rfl⟩ ⟨acc', rfl⟩
      | some message => rw [buildMembers, buildMembers]
  | cons m rest ih =>
      obtain ⟨k, d⟩ := m
      rw [buildMembers, buildMembers]
      cases d.build with
      | error e => exact iff_of_false (by simp [bind, Except.bind]) (by simp [bind, Except.bind])
      | ok v => exact ih (acc.insert k v) (acc'.insert k v)

theorem exists_buildMembers_cons_iff {k : String} {d : Document}
    {rest : List (String × Document)} {stop : Option String} {acc : Members} :
    (∃ kept, buildMembers ((k, d) :: rest) stop acc = .ok kept) ↔
      (∃ v, d.build = .ok v) ∧ ∃ kept, buildMembers rest stop acc = .ok kept := by
  constructor
  · rintro ⟨kept, h⟩
    obtain ⟨v, hd, hrest⟩ := buildMembers_cons h
    exact ⟨⟨v, hd⟩, (exists_buildMembers_iff _ _).mp ⟨kept, hrest⟩⟩
  · rintro ⟨⟨v, hd⟩, hrest⟩
    obtain ⟨kept, hkept⟩ := (exists_buildMembers_iff acc (acc.insert k v)).mp hrest
    exact ⟨kept, by rw [buildMembers, hd]; exact hkept⟩

end Success

mutual

/-- What is read repeats no key. -/
theorem distinct_build : ∀ (d : Document) {v : Value}, d.build = .ok v → v.distinct = true
  | .null, _, h | .bool _, _, h | .number _, _, h | .string _, _, h => by
      cases h
      rfl
  | .error _, _, h => by cases h
  | .seq items stop, _, h => by
      obtain ⟨values, hitems, rfl⟩ := build_seq h
      exact distinct_buildItems items hitems
  | .map members stop, _, h => by
      obtain ⟨kept, hmembers, rfl⟩ := build_map h
      exact distinct_buildMembers members rfl hmembers

theorem distinct_buildItems : ∀ (items : List Document) {stop : Option String}
    {values : List Value}, buildItems items stop = .ok values → Value.distinctItems values = true
  | [], none, _, h => by
      cases h
      rfl
  | [], some _, _, h => by cases h
  | d :: rest, stop, _, h => by
      obtain ⟨v, vs, hd, hrest, rfl⟩ := buildItems_cons h
      rw [Value.distinctItems, distinct_build d hd, distinct_buildItems rest hrest]
      rfl

theorem distinct_buildMembers : ∀ (members : List (String × Document)) {stop : Option String}
    {acc kept : Members}, Value.distinct (.object acc) = true →
    buildMembers members stop acc = .ok kept → Value.distinct (.object kept) = true
  | [], none, _, _, hacc, h => by
      cases h
      exact hacc
  | [], some _, _, _, _, h => by cases h
  | (k, d) :: rest, stop, _, _, hacc, h => by
      obtain ⟨v, hd, hrest⟩ := buildMembers_cons h
      have hvalue := distinct_build d hd
      exact distinct_buildMembers rest (Value.distinct_object_insert hacc k hvalue) hrest

end

section Each

variable {M : String × Document → Prop} {L : String → Prop}

/-- Every member that occurs satisfies the one property, every string literal the other. -/
structure Each (M : String × Document → Prop) (L : String → Prop) (d : Document) : Prop where
  members : ∀ m ∈ d.allMembers, M m
  literals : ∀ s ∈ d.literals, L s

/-- A member with all that occurs in it. -/
structure EachMember (M : String × Document → Prop) (L : String → Prop) (m : String × Document) :
    Prop where
  key : L m.1
  member : M m
  value : m.2.Each M L

theorem each_of_empty {d : Document} (hmembers : d.allMembers = []) (hliterals : d.literals = []) :
    d.Each M L :=
  ⟨by simp [hmembers], by simp [hliterals]⟩

theorem each_string {s : String} : (string s).Each M L ↔ L s :=
  ⟨fun h => h.literals s List.mem_cons_self,
    fun h => ⟨by simp [allMembers], by simpa [literals] using h⟩⟩

theorem each_seq {items : List Document} {stop : Option String} :
    (seq items stop).Each M L ↔ ∀ d ∈ items, d.Each M L := by
  have hsplit : (seq items stop).Each M L ↔
      (∀ m ∈ allMembersItems items, M m) ∧ ∀ s ∈ literalsItems items, L s :=
    ⟨fun h => ⟨h.members, h.literals⟩, fun h => ⟨h.1, h.2⟩⟩
  rw [hsplit]
  clear hsplit
  induction items with
  | nil => simp [allMembersItems, literalsItems]
  | cons d rest ih =>
      simp only [allMembersItems, literalsItems, List.forall_mem_append, List.forall_mem_cons, ← ih]
      exact ⟨fun h => ⟨⟨h.1.1, h.2.1⟩, h.1.2, h.2.2⟩,
        fun h => ⟨⟨h.1.members, h.2.1⟩, h.1.literals, h.2.2⟩⟩

theorem each_map {members : List (String × Document)} {stop : Option String} :
    (map members stop).Each M L ↔ ∀ m ∈ members, EachMember M L m := by
  have hsplit : (map members stop).Each M L ↔
      (∀ m ∈ allMembersMembers members, M m) ∧ ∀ s ∈ literalsMembers members, L s :=
    ⟨fun h => ⟨h.members, h.literals⟩, fun h => ⟨h.1, h.2⟩⟩
  rw [hsplit]
  clear hsplit
  induction members with
  | nil => simp [allMembersMembers, literalsMembers]
  | cons m rest ih =>
      obtain ⟨k, d⟩ := m
      simp only [allMembersMembers, literalsMembers, List.forall_mem_append, List.forall_mem_cons,
        ← ih]
      constructor
      · rintro ⟨⟨hmember, hinner, hmembers⟩, hkey, hwords, hliterals⟩
        exact ⟨⟨hkey, hmember, hinner, hwords⟩, hmembers, hliterals⟩
      · rintro ⟨h, hmembers, hliterals⟩
        exact ⟨⟨h.member, h.value.members, hmembers⟩, h.key, h.value.literals, hliterals⟩

theorem forall_documentMembers {P : String × Document → Prop} {members : List (String × Value)} :
    (∀ m ∈ Value.documentMembers members, P m) ↔ ∀ m ∈ members, P (m.1, m.2.document) := by
  induction members with
  | nil => simp [Value.documentMembers]
  | cons m rest ih => simp only [Value.documentMembers, List.forall_mem_cons, ih]

/-- The property does not tell a document from that of the value that is read. -/
def SameWhenRead (M : String × Document → Prop) : Prop :=
  ∀ (k : String) (d : Document) (v : Value), d.build = .ok v → (M (k, d) ↔ M (k, v.document))

mutual

/-- What occurs is what is read and what is hidden. -/
theorem each_build (hM : SameWhenRead M) : ∀ (d : Document) {v : Value}, d.build = .ok v →
    (d.Each M L ↔ v.document.Each M L ∧ ∀ m ∈ d.hidden, EachMember M L m)
  | .null, _, h | .bool _, _, h | .number _, _, h | .string _, _, h => by
      cases h
      simp [hidden, Value.document]
  | .error _, _, h => by cases h
  | .seq items stop, _, h => by
      obtain ⟨values, hitems, rfl⟩ := build_seq h
      rw [each_seq, Value.document, each_seq, hidden]
      exact each_buildItems hM items hitems
  | .map members stop, _, h => by
      obtain ⟨kept, hmembers, rfl⟩ := build_map h
      rw [each_map, Value.document, each_map, hidden, forall_documentMembers]
      have hnone : (Members.keys []).Nodup := List.nodup_nil
      simpa using each_buildMembers hM members hnone hmembers

theorem each_buildItems (hM : SameWhenRead M) : ∀ (items : List Document)
    {stop : Option String} {values : List Value}, buildItems items stop = .ok values →
    ((∀ d ∈ items, d.Each M L) ↔ (∀ d ∈ Value.documentItems values, d.Each M L) ∧
      ∀ m ∈ hiddenItems items, EachMember M L m)
  | [], none, _, h => by
      cases h
      simp [Value.documentItems, hiddenItems]
  | [], some _, _, h => by cases h
  | d :: rest, stop, _, h => by
      obtain ⟨v, vs, hd, hrest, rfl⟩ := buildItems_cons h
      rw [Value.documentItems, hiddenItems, List.forall_mem_cons, List.forall_mem_cons,
        List.forall_mem_append, each_build hM d hd, each_buildItems hM rest hrest]
      tauto

/-- A member read earlier counts unless its key occurs again. -/
theorem each_buildMembers (hM : SameWhenRead M) : ∀ (members : List (String × Document))
    {stop : Option String} {acc kept : Members}, acc.keys.Nodup →
    buildMembers members stop acc = .ok kept →
    ((∀ m ∈ acc, m.1 ∉ members.map Prod.fst → EachMember M L (m.1, m.2.document)) ∧
        (∀ m ∈ members, EachMember M L m) ↔
      (∀ m ∈ kept, EachMember M L (m.1, m.2.document)) ∧
        ∀ m ∈ hiddenMembers members, EachMember M L m)
  | [], none, _, _, _, h => by
      cases h
      simp [hiddenMembers]
  | [], some _, _, _, _, h => by cases h
  | (k, d) :: rest, stop, acc, _, hkeys, h => by
      obtain ⟨v, hd, hrest⟩ := buildMembers_cons h
      have hread : EachMember M L (k, d) ↔
          EachMember M L (k, v.document) ∧ ∀ m ∈ d.hidden, EachMember M L m := by
        have hvalue := each_build hM d hd
        constructor
        · intro hmember
          have hinner := hvalue.mp hmember.value
          exact ⟨⟨hmember.key, (hM k d v hd).mp hmember.member, hinner.1⟩, hinner.2⟩
        · rintro ⟨hmember, hinner⟩
          exact ⟨hmember.key, (hM k d v hd).mpr hmember.member, hvalue.mpr ⟨hmember.value, hinner⟩⟩
      have hnext := each_buildMembers hM rest (Members.nodup_keys_insert hkeys k v) hrest
      rw [Members.forall_mem_insert hkeys] at hnext
      have hsplit : (∀ m ∈ acc, m.1 ∉ ((k, d) :: rest).map Prod.fst →
            EachMember M L (m.1, m.2.document)) ↔
          ∀ m ∈ acc, m.1 ≠ k → m.1 ∉ rest.map Prod.fst → EachMember M L (m.1, m.2.document) := by
        simp only [List.map_cons, List.mem_cons, not_or, and_imp]
      rw [hiddenMembers, List.forall_mem_cons, List.forall_mem_append, hsplit]
      split
      · next hmem =>
          have hdropped : k ∉ rest.map Prod.fst → EachMember M L (k, v.document) :=
            fun hkept => absurd hmem hkept
          rw [List.forall_mem_singleton]
          tauto
      · next hkept =>
          rw [hread]
          simp only [hkept, not_false_iff, forall_const] at hnext
          tauto

end

end Each

end Document
end Library
