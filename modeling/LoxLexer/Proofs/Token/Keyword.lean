import LoxLexer.Token.Kind

/-! # The tables of keywords

Three tables speak of keywords: in one words are looked up, one tells which kinds are of keywords,
and one has the names of all kinds. They agree: a word is looked up as the keyword that is spelled
so (`Keyword.ofSpelling?_eq_some_iff`), the kinds of keywords are those of the keywords that are
looked up (`TokenKind.isKeyword_iff`), and the name of such a kind is the spelling in capitals
(`TokenKind.toLower_name_of_mem_table`). -/

namespace LoxLexer

namespace Keyword

/-- Every row of the table has the spelling of its keyword. -/
theorem spelling_of_mem_table {row : String × Keyword} (member : row ∈ table) :
    row.2.spelling = row.1 := by
  have every : ∀ row ∈ table, row.2.spelling = row.1 := by decide
  exact every row member

/-- Every keyword is found by its spelling. -/
theorem ofSpelling?_spelling (word : Keyword) : ofSpelling? word.spelling = some word := by
  cases word <;> decide

/-- A word is looked up as the keyword that is spelled so. -/
theorem ofSpelling?_eq_some_iff {letters : String} {word : Keyword} :
    ofSpelling? letters = some word ↔ word.spelling = letters := by
  constructor
  · intro found
    obtain ⟨before, after, whole, -⟩ := List.lookup_eq_some_iff.mp found
    have member : (letters, word) ∈ table := by simp [whole]
    exact spelling_of_mem_table member
  · rintro rfl
    exact ofSpelling?_spelling word

/-- A word is looked up in vain if no keyword is spelled so. -/
theorem ofSpelling?_eq_none_iff {letters : String} :
    ofSpelling? letters = none ↔ ∀ word : Keyword, word.spelling ≠ letters := by
  simp only [Option.eq_none_iff_forall_not_mem, Option.mem_def, ofSpelling?_eq_some_iff, ne_eq]

/-- The table has a row for every keyword. -/
theorem mem_table (word : Keyword) : (word.spelling, word) ∈ table := by
  cases word <;> decide

end Keyword

namespace TokenKind

/-- The kinds of keywords are the kinds of what is looked up. -/
theorem isKeyword_iff {kind : TokenKind} :
    kind.isKeyword = true ↔ ∃ row ∈ Keyword.table, kind = keyword row.2 := by
  constructor
  · intro is_keyword
    cases kind with
    | keyword word => exact ⟨_, word.mem_table, rfl⟩
    | _ => cases is_keyword
  · rintro ⟨⟨spelling, word⟩, -, rfl⟩
    cases word <;> rfl

/-- The name of a keyword's kind is what is looked up, in capitals. -/
theorem toLower_name_of_mem_table {row : String × Keyword} (member : row ∈ Keyword.table) :
    (keyword row.2).name.toLower = row.1 := by
  have every : ∀ row ∈ Keyword.table, (keyword row.2).name.toLower = row.1 := by decide +kernel
  exact every row member

end TokenKind

end LoxLexer
