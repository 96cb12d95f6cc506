import Dcp.Compat.Sse
import Dcp.Library.Json.LastWins
import Dcp.Security.RedactionLaws

/-!
What a payload shows after redaction, in every member and string literal that stands in its text.
The decision is made on the value that is read, and a text that is returned as it is keeps the
members that the reader dropped.
-/

namespace Dcp
open Library

/-- Under a sensitive key there is the marker. -/
def Masked (m : String × Document) : Prop :=
  isSensitiveKey m.1 = true → m.2 = .string REDACTED

/-- Every member is masked and no string literal looks like a secret. -/
abbrev HidesSecrets (d : Document) : Prop :=
  d.Each Masked fun s => looksSensitiveValue s = false

abbrev HidesMember (m : String × Document) : Prop :=
  Document.EachMember Masked (fun s => looksSensitiveValue s = false) m

theorem document_eq_marker_iff {v : Value} :
    v.document = .string REDACTED ↔ v = .string REDACTED := by
  cases v <;> simp [Value.document]

theorem sameWhenRead_masked : Document.SameWhenRead Masked := by
  intro k d v h
  have hmarker : d = .string REDACTED ↔ v.document = .string REDACTED := by
    rw [document_eq_marker_iff]
    cases d with
    | null | bool | number | string => cases h; simp
    | seq items stop =>
        obtain ⟨values, -, rfl⟩ := Document.build_seq h
        simp
    | map members stop =>
        obtain ⟨kept, -, rfl⟩ := Document.build_map h
        simp
    | error => cases h
  exact imp_congr_right fun _ => hmarker

mutual

/-- The text of a value hides what the value does. -/
theorem hidesSecrets_document : ∀ v : Value, HidesSecrets v.document ↔ Clean v
  | .null | .bool _ | .number _ => iff_of_true (Document.each_of_empty rfl rfl) trivial
  | .string _ => Document.each_string
  | .array items => by
      rw [HidesSecrets, Value.document, Document.each_seq]
      exact hidesSecrets_items items
  | .object members => by
      rw [HidesSecrets, Value.document, Document.each_map]
      exact hidesSecrets_members members

theorem hidesSecrets_items : ∀ items : List Value,
    (∀ d ∈ Value.documentItems items, HidesSecrets d) ↔ CleanItems items
  | [] => by simp [Value.documentItems, CleanItems]
  | v :: rest => by
      rw [Value.documentItems, List.forall_mem_cons, hidesSecrets_document v,
        hidesSecrets_items rest, CleanItems]

theorem hidesSecrets_members : ∀ members : List (String × Value),
    (∀ m ∈ Value.documentMembers members, HidesMember m) ↔ CleanMembers members
  | [] => by simp [Value.documentMembers, CleanMembers]
  | (k, v) :: rest => by
      rw [Value.documentMembers, List.forall_mem_cons, hidesSecrets_members rest, CleanMembers,
        ← hidesSecrets_document v, ← document_eq_marker_iff]
      exact ⟨fun h => ⟨h.1.key, h.1.member, h.1.value, h.2⟩,
        fun h => ⟨⟨h.1, h.2.1, h.2.2.1⟩, h.2.2.2⟩⟩

end

section Unchanged

theorem mem_keys_of_sameMembers {members obj : Members}
    (h : Value.sameMembers members obj = true) {key : String} (hkey : key ∈ members.keys) :
    key ∈ obj.keys := by
  obtain ⟨v, hv⟩ := Option.ne_none_iff_exists'.mp (mt Members.get_eq_none_iff.mp (not_not.mpr hkey))
  obtain ⟨w, hw, -⟩ := Value.get_of_sameMembers h hv
  by_contra habsent
  rw [Members.get_eq_none_iff.mpr habsent] at hw
  cases hw

/-- Of two objects of one size, each has the keys of the other. -/
theorem keys_subset_of_same {members obj : Members} (hkeys : members.keys.Nodup)
    (hlength : members.length = obj.length) (h : Value.sameMembers members obj = true) :
    obj.keys ⊆ members.keys := by
  have hsubset : members.keys ⊆ obj.keys := fun key hkey => mem_keys_of_sameMembers h hkey
  have hle : obj.keys.length ≤ members.keys.length := by
    rw [Members.keys, Members.keys, List.length_map, List.length_map, hlength]
  exact ((hkeys.subperm hsubset).perm_of_length_le hle).symm.subset

mutual

/-- What is the same as a settled value is settled. -/
theorem settled_of_same : ∀ (w v : Value), w.same v = true → Settled w → v.distinct = true →
    Settled v
  | .null, v, hsame, _, _ | .bool _, v, hsame, _, _ | .number _, v, hsame, _, _ => by
      cases v with
      | null | bool | number => trivial
      | string | array | object => cases hsame
  | .string s, v, hsame, h, _ => by
      cases v with
      | string t =>
          rw [Value.same, beq_iff_eq] at hsame
          rw [← hsame]
          exact h
      | null | bool | number | array | object => cases hsame
  | .array items, v, hsame, h, hdistinct => by
      cases v with
      | array others => exact settledItems_of_same items others hsame h hdistinct
      | null | bool | number | string | object => cases hsame
  | .object members, v, hsame, h, hdistinct => by
      cases v with
      | object obj =>
          rw [Value.same, Bool.and_eq_true, decide_eq_true_iff] at hsame
          rw [Value.distinct_object] at hdistinct
          refine ⟨hdistinct.1, settledMembers_iff.mpr fun m hm => ?_⟩
          exact settledMember_of_same members hsame.2 h.2 (hdistinct.2 m hm)
            (keys_subset_of_same h.1 hsame.1 hsame.2 (List.mem_map_of_mem hm))
            (Members.get_of_mem hdistinct.1 hm)
      | null | bool | number | string | array => cases hsame

theorem settledItems_of_same : ∀ (items others : List Value),
    Value.sameItems items others = true → SettledItems items →
    Value.distinctItems others = true → SettledItems others
  | [], [], _, _, _ => trivial
  | [], _ :: _, hsame, _, _ | _ :: _, [], hsame, _, _ => by cases hsame
  | w :: items, v :: others, hsame, h, hdistinct => by
      rw [Value.sameItems, Bool.and_eq_true] at hsame
      rw [Value.distinctItems, Bool.and_eq_true] at hdistinct
      exact ⟨settled_of_same w v hsame.1 h.1 hdistinct.1,
        settledItems_of_same items others hsame.2 h.2 hdistinct.2⟩

theorem settledMember_of_same : ∀ (members : List (String × Value)) {obj : Members}
    {m : String × Value}, Value.sameMembers members obj = true → SettledMembers members →
    m.2.distinct = true → m.1 ∈ Members.keys members → obj.get m.1 = some m.2 →
    sanitizeFieldKey m.1 = m.1 ∧ (isSensitiveKey m.1 = true → m.2 = .string REDACTED) ∧ Settled m.2
  | [], _, _, _, _, _, hkey, _ => by cases hkey
  | (k, w) :: rest, obj, (key, v), hsame, h, hdistinct, hkey, hget => by
      rw [Value.sameMembers, Bool.and_eq_true] at hsame
      by_cases hk : key = k
      · subst hk
        dsimp only at hget hdistinct ⊢
        rw [hget] at hsame
        refine ⟨h.1, fun hsensitive => ?_, settled_of_same w v hsame.1 h.2.2.1 hdistinct⟩
        have hmarker := hsame.1
        rw [h.2.1 hsensitive] at hmarker
        cases v with
        | string s =>
            simp only [Value.same, beq_iff_eq] at hmarker
            rw [hmarker]
        | null | bool | number | array | object => cases hmarker
      · have hrest : key ∈ Members.keys rest := (List.mem_cons.mp hkey).resolve_left hk
        exact settledMember_of_same rest hsame.2 h.2.2.2 hdistinct hrest hget

end

/-- Redaction keeps the text of exactly the settled values. -/
theorem same_sanitizeJsonValue_iff {v : Value} (h : v.distinct = true) :
    (sanitizeJsonValue v).same v = true ↔ Settled v := by
  constructor
  · intro hsame
    exact settled_of_same _ v hsame (settled_sanitizeJsonValue v) h
  · intro hsettled
    rw [sanitize_of_settled v hsettled]
    exact Value.same_refl v h

end Unchanged

/-- How the codec stands to what texts say, for one text: if it reads the text, it keeps the last of
the members with one key, and it writes the sanitized value as a text of it. The marker is not
JSON. -/
structure ReadsText (codec : JsonCodec) (tree : String → Option Document) (json : String) :
    Prop where
  reads : ∀ value d, codec.fromStr json = .ok value → tree json = some d → d.build = .ok value
  writes : ∀ value, codec.fromStr json = .ok value →
    ∃ text, codec.toText (sanitizeJsonValue value) = .ok text ∧
      tree text = some (sanitizeJsonValue value).document
  marker : tree REDACTED = none

section Reference

/-- What the reference reader finds in a text that it accepts. -/
def referenceTree (text : String) : Option Document :=
  match JsonCodec.readValueText text with
  | .ok _ => some (JsonCodec.readText text).1
  | .error _ => none

theorem readValueText_of_readText {text : String} {d : Document} {value : Value}
    (h : JsonCodec.readText text = (d, some [])) (hbuild : d.build = .ok value) :
    JsonCodec.readValueText text = .ok value := by
  rw [JsonCodec.readValueText, h, hbuild]
  rfl

theorem referenceTree_of_readText {text : String} {d : Document} {value : Value}
    (h : JsonCodec.readText text = (d, some [])) (hbuild : d.build = .ok value) :
    referenceTree text = some d := by
  rw [referenceTree, readValueText_of_readText h hbuild, h]

theorem referenceTree_redacted : referenceTree REDACTED = none := by
  have hread : (JsonCodec.readText REDACTED).1 =
      .seq [.error "expected value"] none := by
    rw [redacted_eq, JsonCodec.readText, String.toList_ofList]
    rfl
  rw [referenceTree, JsonCodec.readValueText, hread]
  rfl

/-- The reference codec stands so to the texts of plain values. -/
theorem readsText_reference {text : String} {value : Value}
    (hread : JsonCodec.readValueText text = .ok value) (hplain : value.plain = true) :
    ReadsText .reference referenceTree text where
  reads other d hother hd := by
    have hbuild := (JsonCodec.readValueText_eq_ok_iff.mp hother).1
    rw [referenceTree, hread] at hd
    cases hd
    exact hbuild
  writes other hother := by
    have heq : value = other := Except.ok.inj (hread.symm.trans hother)
    have hclean : (sanitizeJsonValue other).plain = true :=
      plain_sanitizeJsonValue other (heq ▸ hplain)
    exact ⟨_, rfl, referenceTree_of_readText (JsonCodec.readText_printText _ hclean)
      (Document.build_document _ hclean)⟩
  marker := referenceTree_redacted

end Reference

/-- Where the text is returned as it is, nothing in it that the reader does not keep shows a secret:
no hidden member of a text that is read, and nothing at all in one that is not. -/
structure KeepsNothingSecret (codec : JsonCodec) (json : String) (d : Document) : Prop where
  read : ∀ value, codec.fromStr json = .ok value → Settled value → ∀ m ∈ d.hidden, HidesMember m
  unread : ∀ error, codec.fromStr json = .error error → looksSensitiveValue json = false →
    HidesSecrets d

section Payload

variable {codec : JsonCodec} {tree : String → Option Document} {json : String} {d : Document}
  {value : Value}

theorem sanitizeReplayPayload_settled (hread : codec.fromStr json = .ok value)
    (hdistinct : value.distinct = true) (h : Settled value) :
    sanitizeReplayPayload codec json = json := by
  rw [sanitizeReplayPayload, hread]
  exact if_pos ((same_sanitizeJsonValue_iff hdistinct).mpr h)

theorem sanitizeReplayPayload_changed (hread : codec.fromStr json = .ok value)
    (hdistinct : value.distinct = true) (h : ¬ Settled value) {text : String}
    (htext : codec.toText (sanitizeJsonValue value) = .ok text) :
    sanitizeReplayPayload codec json = text := by
  rw [sanitizeReplayPayload, hread]
  dsimp only
  rw [if_neg fun hsame => h ((same_sanitizeJsonValue_iff hdistinct).mp hsame), htext]

theorem sanitizeReplayPayload_unread {error : String} (hread : codec.fromStr json = .error error) :
    sanitizeReplayPayload codec json = sanitizeText json := by
  rw [sanitizeReplayPayload, hread]

/-- What is shown of a text that is read. -/
theorem hidesSecrets_read (h : ReadsText codec tree json) (hjson : tree json = some d)
    (hread : codec.fromStr json = .ok value) :
    (∀ shown, tree (sanitizeReplayPayload codec json) = some shown → HidesSecrets shown) ↔
      (Settled value → ∀ m ∈ d.hidden, HidesMember m) := by
  have hbuild := h.reads value d hread hjson
  have hdistinct := Document.distinct_build d hbuild
  by_cases hsettled : Settled value
  · have hkept : HidesSecrets d ↔ ∀ m ∈ d.hidden, HidesMember m := by
      have hvalue := (hidesSecrets_document value).mpr (clean_of_settled value hsettled)
      have hall : HidesSecrets d ↔
          HidesSecrets value.document ∧ ∀ m ∈ d.hidden, HidesMember m :=
        Document.each_build sameWhenRead_masked d hbuild
      exact hall.trans (and_iff_right hvalue)
    simp [sanitizeReplayPayload_settled hread hdistinct hsettled, hjson, hsettled, hkept]
  · obtain ⟨text, htext, htree⟩ := h.writes value hread
    have hclean := clean_of_settled _ (settled_sanitizeJsonValue value)
    simp [sanitizeReplayPayload_changed hread hdistinct hsettled htext, htree, hsettled,
      (hidesSecrets_document _).mpr hclean]

/-- What is shown of a text that is refused. -/
theorem hidesSecrets_unread (h : ReadsText codec tree json) (hjson : tree json = some d)
    {error : String} (hread : codec.fromStr json = .error error) :
    (∀ shown, tree (sanitizeReplayPayload codec json) = some shown → HidesSecrets shown) ↔
      (looksSensitiveValue json = false → HidesSecrets d) := by
  rw [sanitizeReplayPayload_unread hread, sanitizeText]
  cases looksSensitiveValue json with
  | true => simp [h.marker]
  | false => simp [hjson]

/-- A payload hides its secrets exactly when nothing that is only in its text shows one. -/
theorem sanitizeReplayPayload_hides_iff (h : ReadsText codec tree json)
    (hjson : tree json = some d) :
    (∀ shown, tree (sanitizeReplayPayload codec json) = some shown → HidesSecrets shown) ↔
      KeepsNothingSecret codec json d := by
  cases hread : codec.fromStr json with
  | error error =>
      rw [hidesSecrets_unread h hjson hread]
      refine ⟨fun hall => ⟨fun _ hok => ?_, fun _ _ => hall⟩, fun hkept => hkept.unread error hread⟩
      rw [hread] at hok
      cases hok
  | ok value =>
      rw [hidesSecrets_read h hjson hread]
      refine ⟨fun hall => ⟨fun other hok => ?_, fun _ herror => ?_⟩, fun hkept =>
        hkept.read value hread⟩
      · rw [hread] at hok
        cases hok
        exact hall
      · rw [hread] at herror
        cases herror

end Payload

/-- A token is hidden. -/
theorem sanitizeReplayPayload_hides_token :
    ∃ shown, referenceTree (sanitizeReplayPayload .reference
      (JsonCodec.printText (.object [("token", .string "abc")]))) = some shown ∧
      HidesSecrets shown := by
  have hplain : (Value.object [("token", .string "abc")]).plain = true := rfl
  have htext := JsonCodec.readText_printText _ hplain
  have hbuild := Document.build_document _ hplain
  have hread := readValueText_of_readText htext hbuild
  have hsome : (referenceTree (sanitizeReplayPayload .reference
      (JsonCodec.printText (.object [("token", .string "abc")])))).isSome = true := by
    decide +kernel
  obtain ⟨shown, hshown⟩ := Option.isSome_iff_exists.mp hsome
  refine ⟨shown, hshown, (sanitizeReplayPayload_hides_iff (readsText_reference hread hplain)
    (referenceTree_of_readText htext hbuild)).mpr ⟨fun _ _ _ m hm => ?_, fun _ herror => ?_⟩
      shown hshown⟩
  · cases hm
  · exact absurd (hread.symm.trans herror) (by simp)

/-- A token and, under the same key, the marker. -/
def maskedTwice : List Char :=
  ['\x7b', '"', 't', 'o', 'k', 'e', 'n', '"', ':', '"', 'a', 'b', 'c', '"', ',', '"', 't', 'o', 'k',
    'e', 'n', '"', ':', '"', '[', 'R', 'E', 'D', 'A', 'C', 'T', 'E', 'D', ']', '"', '\x7d']

theorem readText_maskedTwice : JsonCodec.readText (String.ofList maskedTwice) =
    (.map [("token", .string "abc"), ("token", .string REDACTED)] none, some []) := by
  rw [JsonCodec.readText, String.toList_ofList]
  rfl

/-- The token is shown: the value that is read has the marker only. -/
theorem sanitizeReplayPayload_maskedTwice : ∃ (tree : String → Option Document) (d : Document),
    ReadsText .reference tree (String.ofList maskedTwice) ∧
    tree (String.ofList maskedTwice) = some d ∧
    ¬ ∀ shown, tree (sanitizeReplayPayload .reference (String.ofList maskedTwice)) = some shown →
      HidesSecrets shown := by
  have hbuild : (Document.map [("token", .string "abc"), ("token", .string REDACTED)] none).build =
      .ok (.object [("token", .string REDACTED)]) := rfl
  have hread := readValueText_of_readText readText_maskedTwice hbuild
  have htree := referenceTree_of_readText readText_maskedTwice hbuild
  have hreads := readsText_reference hread rfl
  refine ⟨referenceTree, _, hreads, htree, fun hall => ?_⟩
  have hkey : sanitizeFieldKey "token" = "token" := by
    have hlooks : looksSensitiveValue "token" = false := looksSensitiveValue_plain rfl (by decide)
    rw [sanitizeFieldKey, hlooks]
    decide
  have hsettled : Settled (.object [("token", .string REDACTED)]) :=
    ⟨List.nodup_singleton _, hkey, fun _ => rfl, sanitizeText_redacted, trivial⟩
  have hmasked := ((hidesSecrets_read hreads htree hread).mp hall hsettled
    ("token", .string "abc") (by simp [Document.hidden, Document.hiddenMembers])).member
  have hsensitive : isSensitiveKey "token" = true := by decide
  exact absurd (hmasked hsensitive) (by simp [REDACTED])

end Dcp
