import RecordLog.Proofs.Json.Members
import RecordLog.Proofs.Json.Numbers
import RecordLog.Proofs.Json.Positions
import RecordLog.Proofs.Query.Search
import RecordLog.Proofs.Text.LetterCase

/-!
# Searching for what is stored

A search takes any value as its phrase, shown as plain text; a record is searched through its
values, shown in their own way.  For a value without items the two ways differ in two places.
Booleans are `True` and `False` on one side and `true` and `false` on the other, which is the
same word in lower case.  A double without a fractional part is `1.0` or `1e+16` on one side,
and the digits of an integer on the other: these are different words
(`words_of_wholeDouble`).

So a stored value finds its record, unless it is such a double; and then it does so only if
another searched field happens to have the word (`search_for_stored`).
-/

namespace RecordLog

/-! ### Written numbers -/

/-- The marks of a number are plain, and separate no words. -/
theorem Json.plain_of_mem_numberMarks : ∀ c ∈ numberMarks, c.IsPlain ∧ c ≠ wordSeparator := by
  decide

/-- A written number is one word, and its own lower case. -/
theorem Text.words_of_numberMarks {t : Text} (h : t ⊆ Json.numberMarks) : t.words = [t] := by
  have hplain : ∀ c ∈ t, c.IsPlain := fun c hc => (Json.plain_of_mem_numberMarks c (h hc)).1
  have hspace : wordSeparator ∉ t := fun hmem => (Json.plain_of_mem_numberMarks _ (h hmem)).2 rfl
  rw [words, lowercase_of_plain hplain, splitOn_of_notMem hspace]

namespace Json

/-! ### The two ways of showing a value -/

/-- A double without a fractional part. -/
def IsWholeDouble (v : Json) : Prop :=
  ∃ x n, v = .float x ∧ x.toInt? = some n

/-- The phrase that a value stands for has the words that the value is searched by. -/
theorem words_phraseOf {v : Json} (hleaf : v.isLeaf) (hv : ¬ IsWholeDouble v) :
    (Query.phraseOf v).words = v.searchText.words := by
  match v with
  | .null => rfl
  | .bool true => decide +kernel
  | .bool false => decide +kernel
  | .int _ => rfl
  | .str _ => rfl
  | .float x =>
      have hnone : x.toInt? = none := Option.eq_none_iff_forall_ne_some.mpr
        fun n hn => hv ⟨x, n, rfl, hn⟩
      rw [searchText, hnone]
      rfl

/-- As a phrase, a double without a fractional part is one word, and it is searched by another
one. -/
theorem words_of_wholeDouble {v : Json} (hv : IsWholeDouble v) :
    (Query.phraseOf v).words = [Query.phraseOf v] ∧
      Query.phraseOf v ∉ v.searchText.words := by
  obtain ⟨x, n, rfl, hn⟩ := hv
  cases x with
  | nan => cases hn
  | infinite => cases hn
  | finite negative m =>
      refine ⟨Text.words_of_numberMarks (render_finite_subset displayWords negative m), ?_⟩
      rw [searchText, hn]
      dsimp only
      rw [Text.words_of_numberMarks (ofInt_subset n), List.mem_singleton]
      exact render_ne_ofInt (.finite negative m) n

end Json

/-! ### Searching for a stored value -/

/-- A document that starts with the key for words asks for the words of its value. -/
theorem Query.classify_words (v : Json) (later : Members) (knownFields : List Text) :
    classify (.obj ((wordsKey, v) :: later)) knownFields = .ok (.words (phraseOf v)) := by
  rw [classify, if_pos rfl]

section Stored

variable {textFields knownFields : List Text} {rs : List Record} {r : Record}

/-- **A search for a stored value finds its record, unless the value is a whole double.**  Let a
record be in a collection, and let a field of it that is searched hold a value that is no array
and no object.  The value as the phrase of a search is a search for words, which succeeds.  It
finds the record if the value is not a double without a fractional part.  With such a double it
finds the record exactly if another searched field has the written double as a word. -/
theorem search_for_stored (hr : r ∈ rs) {field : Text} (hfield : field ∈ textFields) {v : Json}
    (hv : Members.get? r field = some v) (hleaf : v.isLeaf) :
    ∃ phrase found,
      Query.classify (.obj [("$text", v)]) knownFields = .ok (.words phrase) ∧
      (Query.words phrase).select textFields rs = .ok found ∧
      (¬ v.IsWholeDouble → r ∈ found) ∧
      (v.IsWholeDouble → (r ∈ found ↔
        ∃ member ∈ r, member ≠ (field, v) ∧ member.1 ∈ textFields ∧
          phrase ∈ member.2.searchText.words)) := by
  have hmember : (field, v) ∈ r := Members.mem_of_get? hv
  -- the record has a searched field, so the case of a record without any falls away
  have hfound : r ∈ Record.search textFields (Query.phraseOf v) rs ↔
      ∃ member ∈ r, member.1 ∈ textFields ∧
        ∃ word ∈ (Query.phraseOf v).words, word ∈ member.2.searchText.words := by
    have hsearched : ¬ ∀ member ∈ r, member.1 ∉ textFields := fun h => h _ hmember hfield
    rw [Record.search_eq, List.mem_filter, decide_eq_true_iff, and_iff_right hr, Record.Mentions,
      or_iff_left fun h => hsearched h.1]
  refine ⟨_, _, Query.classify_words v [] knownFields, rfl, ?_, ?_⟩
  · intro hwhole
    obtain ⟨word, hword⟩ : ∃ word, word ∈ v.searchText.words :=
      List.exists_mem_of_ne_nil _ (splitOn_ne_nil wordSeparator v.searchText.lowercase)
    have hwanted : word ∈ (Query.phraseOf v).words := by
      rw [Json.words_phraseOf hleaf hwhole]
      exact hword
    exact hfound.mpr ⟨(field, v), hmember, hfield, word, hwanted, hword⟩
  · intro hwhole
    obtain ⟨hwords, hother⟩ := Json.words_of_wholeDouble hwhole
    rw [hfound, hwords]
    simp only [List.mem_singleton, exists_eq_left]
    constructor
    · rintro ⟨member, hmem, hsearched, hword⟩
      refine ⟨member, hmem, ?_, hsearched, hword⟩
      rintro rfl
      exact hother hword
    · rintro ⟨member, hmem, -, hsearched, hword⟩
      exact ⟨member, hmem, hsearched, hword⟩

/-- A boolean is spelled in two ways, of which one has a capital. -/
theorem search_for_stored_boolean :
    let r : Record := [("_id", .int 1), ("open", .bool true)]
    let s : Record := [("_id", .int 2), ("open", .bool false)]
    Members.get? r "open" = some (.bool true) ∧
      ∃ phrase found,
        Query.classify (.obj [("$text", .bool true)]) ["_id", "open"] = .ok (.words phrase) ∧
        (Query.words phrase).select ["open"] [s, r] = .ok found ∧ r ∈ found := by
  intro r s
  have hwhole : ¬ (Json.bool true).IsWholeDouble := by
    rintro ⟨x, n, hfloat, -⟩
    cases hfloat
  have hr : r ∈ [s, r] := List.mem_cons_of_mem s List.mem_cons_self
  have hfield : Text.ofString "open" ∈ [Text.ofString "open"] := List.mem_cons_self
  have hv : Members.get? r "open" = some (.bool true) := rfl
  obtain ⟨phrase, found, hphrase, hfound, hmem, -⟩ := search_for_stored hr hfield hv rfl
  exact ⟨hv, phrase, found, hphrase, hfound, hmem hwhole⟩

/-- The value 1.0 does not find the record that holds it: the phrase is `1.0`, and the record
is searched by `1`. -/
theorem search_for_stored_one_misses :
    let r : Record := [("_id", .int 1), ("n", .float Double.one)]
    Members.get? r "n" = some (.float Double.one) ∧
      Query.classify (.obj [("$text", .float Double.one)]) ["_id", "n"] = .ok (.words "1.0") ∧
      (Query.words "1.0").select ["n"] [r] = .ok [] := by
  intro r
  have hphrase : Query.phraseOf (.float Double.one) = "1.0" := by decide +kernel
  have hmiss : Record.hasWord ["n"] (Text.words "1.0") r = false := by decide +kernel
  refine ⟨rfl, ?_, ?_⟩
  · rw [← hphrase]
    exact Query.classify_words (.float Double.one) [] ["_id", "n"]
  · exact congrArg Except.ok (List.filter_eq_nil_iff.mpr
      (List.forall_mem_singleton.mpr (ne_true_of_eq_false hmiss)))

end Stored

end RecordLog
