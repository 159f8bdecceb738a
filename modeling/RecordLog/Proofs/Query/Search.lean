import RecordLog.Database

/-!
# Searching field by field

A record is searched as one text, in which the values of its fields stand side by side.
What is found does not depend on that: a space ends the context that lower case looks
at, and splits the text, so that each field keeps its own words, and none are added.

* `Text.words_append` says this of two texts with a space between them, and
  `Text.words_joined` of any number of them.  Only where there is no text at all, one
  empty word is found;
* `hasWord_iff` reads a match field by field, as `Record.Mentions`;
* `search_field_by_field` puts it together for whole searches, and says what a phrase in
  two parts finds.
-/

namespace RecordLog

/-! ### Words -/

/-- A space has no case, and no letter is looked for past it. -/
theorem Text.isBlocker_wordSeparator : IsBlocker wordSeparator :=
  ⟨by decide +kernel, by decide +kernel⟩

/-- The separator of words is its own lower case. -/
theorem Text.lowercaseAt_wordSeparator : lowercaseAt [] wordSeparator [] = [wordSeparator] := by
  decide +kernel

/-- A space between two texts keeps their words apart. -/
theorem Text.words_append (s t : Text) :
    words (s ++ wordSeparator :: t) = words s ++ words t := by
  rw [words, lowercase_append_blocker isBlocker_wordSeparator, lowercaseAt_wordSeparator,
    List.append_assoc, List.singleton_append, splitOn_append_sep, words, words]

/-- Texts that are joined with spaces have the words that each of them has. -/
theorem Text.words_joined (t : Text) (ts : List Text) :
    words (joined [wordSeparator] (t :: ts)) = (t :: ts).flatMap words := by
  induction ts generalizing t with
  | nil => rw [joined, List.flatMap_singleton]
  | cons u ts ih =>
      rw [joined, List.append_assoc, List.singleton_append, words_append, ih]
      rfl

namespace Record

/-! ### Matches -/

/-- A field to search has one of the wanted words; or there is no such field, and the
empty word is wanted. -/
def Mentions (textFields wanted : List Text) (r : Record) : Prop :=
  (∃ member ∈ r, member.1 ∈ textFields ∧ ∃ word ∈ wanted, word ∈ member.2.searchText.words) ∨
    (∀ member ∈ r, member.1 ∉ textFields) ∧ [] ∈ wanted

instance (textFields wanted : List Text) (r : Record) : Decidable (Mentions textFields wanted r) :=
  inferInstanceAs (Decidable (_ ∨ _))

/-- The values of the fields that are searched. -/
def searched (textFields : List Text) (r : Record) : List Json :=
  (r.filter fun (key, _) => key.isOneOf textFields).map (·.2)

/-- The searched values are those of the text fields that a record has. -/
theorem mem_searched {textFields : List Text} {r : Record} {v : Json} :
    v ∈ searched textFields r ↔ ∃ member ∈ r, member.1 ∈ textFields ∧ member.2 = v := by
  simp only [searched, List.mem_map, List.mem_filter, Text.isOneOf_iff, and_assoc]

/-- Nothing is searched in a record without a text field. -/
theorem searched_eq_nil_iff {textFields : List Text} {r : Record} :
    searched textFields r = [] ↔ ∀ member ∈ r, member.1 ∉ textFields := by
  simp only [searched, List.map_eq_nil_iff, List.filter_eq_nil_iff, Text.isOneOf_iff]

/-- The words of a record are those of its searched fields, one after the other; without
such fields, they are one empty word. -/
theorem words_searchText (textFields : List Text) (r : Record) :
    (searchText textFields r).words =
      match searched textFields r with
      | [] => [[]]
      | v :: vs => (v :: vs).flatMap fun v => v.searchText.words := by
  have htexts : searchText textFields r =
      joined [wordSeparator] ((searched textFields r).map Json.searchText) := by
    rw [searched, List.map_map]
    rfl
  rw [htexts]
  split
  · next hnil => rw [hnil]; rfl
  · next v vs hcons =>
      rw [hcons, List.map_cons, Text.words_joined, ← List.map_cons, List.flatMap_map]

/-- A record matches if one of its searched fields does. -/
theorem hasWord_iff (textFields wanted : List Text) (r : Record) :
    hasWord textFields wanted r ↔ Mentions textFields wanted r := by
  simp only [hasWord, List.any_eq_true, Text.isOneOf_iff, words_searchText, Mentions,
    ← searched_eq_nil_iff]
  cases hsearched : searched textFields r with
  | nil =>
      have hnone := searched_eq_nil_iff.mp hsearched
      constructor
      · rintro ⟨word, hword, hwanted⟩
        obtain rfl := List.mem_singleton.mp hword
        exact Or.inr ⟨rfl, hwanted⟩
      · rintro (⟨member, hmember, hfield, _⟩ | ⟨_, hwanted⟩)
        · exact absurd hfield (hnone member hmember)
        · exact ⟨[], List.mem_singleton_self [], hwanted⟩
  | cons v vs =>
      have hmem : ∀ u, u ∈ v :: vs ↔ ∃ member ∈ r, member.1 ∈ textFields ∧ member.2 = u := by
        intro u
        rw [← hsearched]
        exact mem_searched
      simp only [List.mem_flatMap, hmem]
      constructor
      · rintro ⟨word, ⟨u, ⟨member, hmember, hfield, rfl⟩, hword⟩, hwanted⟩
        exact Or.inl ⟨member, hmember, hfield, word, hwanted, hword⟩
      · rintro (⟨member, hmember, hfield, word, hwanted, hword⟩ | ⟨hnil, _⟩)
        · exact ⟨word, ⟨member.2, ⟨member, hmember, hfield, rfl⟩, hword⟩, hwanted⟩
        · exact absurd hnil (List.cons_ne_nil v vs)

/-- More wanted words are mentioned where some of them are. -/
theorem mentions_append {textFields wanted others : List Text} {r : Record} :
    Mentions textFields (wanted ++ others) r ↔
      Mentions textFields wanted r ∨ Mentions textFields others r := by
  simp only [Mentions, List.mem_append, or_and_right, exists_or, and_or_left]
  exact or_or_or_comm

/-- A search is the filter by what records mention. -/
theorem search_eq (textFields : List Text) (phrase : Text) (rs : List Record) :
    search textFields phrase rs = rs.filter fun r => Mentions textFields phrase.words r := by
  rw [search]
  apply List.filter_congr
  intro r _
  rw [Bool.eq_iff_iff, decide_eq_true_iff]
  exact hasWord_iff textFields phrase.words r

end Record

section

open scoped Classical

/-- **Searching is done field by field.**  A search finds, in the order of the log, the
records of which some searched field has a word of the phrase among its own words, and
the records without such fields if the phrase has the empty word.  For joining fields
with a space adds no words, loses none and merges none: each text keeps its words, in
order, whatever stands next to it.  A phrase in two parts finds what either part finds,
again in the order of the log. -/
theorem search_field_by_field (textFields : List Text) (rs : List Record) :
    (∀ phrase, (Query.words phrase).select textFields rs =
      .ok (rs.filter fun r =>
        (∃ member ∈ r, member.1 ∈ textFields ∧
          ∃ word ∈ Text.words phrase, word ∈ Text.words member.2.searchText) ∨
        (∀ member ∈ r, member.1 ∉ textFields) ∧ [] ∈ Text.words phrase)) ∧
    (∀ (t : Text) (ts : List Text), Text.words (joined [wordSeparator] (t :: ts)) =
      Text.words t ++ ts.flatMap Text.words) ∧
    ∀ p q : Text, ∃ ps qs : List Record,
      (Query.words p).select textFields rs = .ok ps ∧
      (Query.words q).select textFields rs = .ok qs ∧
      (Query.words (p ++ wordSeparator :: q)).select textFields rs =
        .ok (rs.filter fun r => r ∈ ps ∨ r ∈ qs) := by
  refine ⟨?_, ?_, ?_⟩
  · intro phrase
    exact congrArg Except.ok (Record.search_eq textFields phrase rs)
  · intro t ts
    rw [Text.words_joined, List.flatMap_cons]
  · intro p q
    refine ⟨_, _, rfl, rfl, congrArg Except.ok ?_⟩
    rw [Record.search]
    apply List.filter_congr
    intro r hr
    rw [Bool.eq_iff_iff, Record.hasWord_iff, Text.words_append, Record.mentions_append]
    simp only [Record.search_eq, List.mem_filter, hr, true_and, decide_eq_true_eq]

end

/-- A capital sigma is final at the end of the first field, and not before the second
letter of the other one. -/
example : Text.words (joined [wordSeparator] [Text.ofString "\u039F\u03A3", "\u03A3\u0391"]) =
    [Text.ofString "\u03BF\u03C2", "\u03C3\u03B1"] := by
  decide +kernel

end RecordLog
