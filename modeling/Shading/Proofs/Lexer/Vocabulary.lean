import Shading.Lexer

/-!
The written forms of operators and words.

Each table is stated as a relation between a run of characters and a kind, and
the lookups of the lexer are proved to find exactly what the relations say.
-/

namespace Shading

namespace Lexical

inductive OperatorText : List Char → Token.Kind → Prop where
  | assign : OperatorText ['='] .assign
  | boolean (operator : BooleanOperator) :
      OperatorText operator.symbol.toList (.boolean operator)
  | arithmetic (operator : ArithmeticOperator) :
      OperatorText [operator.symbol] (.arithmetic operator)
  | compound (operator : ArithmeticOperator) {middle : List Char}
      (inside : ∀ character ∈ middle, Character.isOperator character = true) :
      OperatorText (operator.symbol :: (middle ++ ['='])) (.compoundAssign operator)

/-- A run of word characters: reserved words, type names, and names, which are the
words that are written like none of the others. -/
inductive WordText : List Char → Token.Kind → Prop where
  | keyword (word : Token.Keyword) : WordText word.word.toList (.keyword word)
  | typeName (type : Token.TypeName) : WordText type.word.toList (.typeName type)
  | name {run : List Char} (notKeyword : ∀ word : Token.Keyword, word.word.toList ≠ run)
      (notType : ∀ type : Token.TypeName, type.word.toList ≠ run) :
      WordText run (.name (String.ofList run))

/-! ### Operators -/

theorem symbol_of_ofChar? {character : Char} {operator : ArithmeticOperator}
    (found : ArithmeticOperator.ofChar? character = some operator) :
    character = operator.symbol := by
  unfold ArithmeticOperator.ofChar? at found
  split at found <;> cases found <;> rfl

theorem operatorText_inside {run : List Char} {kind : Token.Kind}
    (written : OperatorText run kind) :
    ∀ character ∈ run, Character.isOperator character = true := by
  cases written with
  | assign => exact List.all_eq_true.mp rfl
  | boolean operator => cases operator <;> exact List.all_eq_true.mp rfl
  | arithmetic operator => cases operator <;> exact List.all_eq_true.mp rfl
  | @compound operator middle inside =>
      have first : Character.isOperator operator.symbol = true := by
        cases operator <;> decide
      have last : ∀ character ∈ ['='], Character.isOperator character = true :=
        List.all_eq_true.mp rfl
      exact List.forall_mem_cons.mpr ⟨first, List.forall_mem_append.mpr ⟨inside, last⟩⟩

theorem operatorKind?_compound (operator : ArithmeticOperator) (middle : List Char) :
    operatorKind? (operator.symbol :: (middle ++ ['='])) = some (.compoundAssign operator) := by
  have last : (middle ++ ['=']).getLast? = some '=' := List.getLast?_concat
  cases middle with
  | nil => cases operator <;> rfl
  | cons second others =>
      -- Three characters or more are none of the listed operators.
      obtain ⟨third, behind, split⟩ : ∃ third behind, others ++ ['='] = third :: behind := by
        cases others with
        | nil => exact ⟨'=', [], rfl⟩
        | cons third behind => exact ⟨third, behind ++ ['='], rfl⟩
      rw [List.cons_append, split] at last ⊢
      rw [operatorKind?, if_pos last, ArithmeticOperator.ofChar?_symbol]
      · rfl
      all_goals simp

theorem operatorKind?_iff {run : List Char} {kind : Token.Kind}
    (inside : ∀ character ∈ run, Character.isOperator character = true) :
    operatorKind? run = some kind ↔ OperatorText run kind := by
  constructor
  · intro found
    unfold operatorKind? at found
    split at found
    · cases found
      exact .assign
    · cases found
      exact .boolean .equal
    · cases found
      exact .boolean .notEqual
    · cases found
      exact .boolean .greater
    · cases found
      exact .boolean .less
    · cases found
      exact .boolean .greaterOrEqual
    · cases found
      exact .boolean .lessOrEqual
    · cases found
      exact .boolean .and
    · cases found
      exact .boolean .or
    · cases found
      exact .boolean .not
    · cases found
    · obtain ⟨operator, known, rfl⟩ := Option.map_eq_some_iff.mp found
      rw [symbol_of_ofChar? known]
      exact .arithmetic operator
    · split at found
      · rename_i ends
        obtain ⟨operator, known, rfl⟩ := Option.map_eq_some_iff.mp found
        obtain ⟨middle, rfl⟩ := List.getLast?_eq_some_iff.mp ends
        have middleInside := (List.forall_mem_append.mp (List.forall_mem_cons.mp inside).2).1
        rw [symbol_of_ofChar? known]
        exact .compound operator middleInside
      · cases found
  · intro written
    cases written with
    | assign => rfl
    | boolean operator => cases operator <;> rfl
    | arithmetic operator => cases operator <;> rfl
    | @compound operator middle _ => exact operatorKind?_compound operator middle

/-! ### Words -/

theorem keyword_listed (word : Token.Keyword) : word ∈ Token.Keyword.all := by
  cases word <;> decide

theorem typeName_listed (type : Token.TypeName) : type ∈ Token.TypeName.all := by
  rcases type with _ | type
  · decide
  · cases type <;> decide

section Lookup

variable {α : Type} {table : List α} {spelled : α → String} {run : List Char}

theorem spelled_of_find? {entry : α}
    (found : table.find? (spelled · == String.ofList run) = some entry) :
    (spelled entry).toList = run := by
  have same : spelled entry = String.ofList run := by
    simpa using List.find?_some found
  rw [same, String.toList_ofList]

theorem find?_eq_none_iff (listed : ∀ entry, entry ∈ table) :
    table.find? (spelled · == String.ofList run) = none ↔
      ∀ entry, (spelled entry).toList ≠ run := by
  rw [List.find?_eq_none]
  constructor
  · rintro different entry rfl
    have same := different entry (listed entry)
    rw [String.ofList_toList, beq_self_eq_true] at same
    exact same rfl
  · intro different entry _ same
    have equal : spelled entry = String.ofList run := by
      simpa using same
    apply different entry
    rw [equal, String.toList_ofList]

end Lookup

theorem wordKind_iff {run : List Char} {kind : Token.Kind} :
    wordKind (String.ofList run) = kind ↔ WordText run kind := by
  constructor
  · rintro rfl
    unfold wordKind
    split
    · rename_i word found
      rw [← spelled_of_find? found]
      exact .keyword word
    · rename_i noKeyword
      have notKeyword := (find?_eq_none_iff keyword_listed).mp noKeyword
      split
      · rename_i type found
        rw [← spelled_of_find? found]
        exact .typeName type
      · rename_i noType
        have notType := (find?_eq_none_iff typeName_listed).mp noType
        exact .name notKeyword notType
  · intro written
    cases written with
    | keyword word => cases word <;> rfl
    | typeName type =>
        rcases type with _ | type
        · rfl
        · cases type <;> rfl
    | name notKeyword notType =>
        have noKeyword := (find?_eq_none_iff keyword_listed).mpr notKeyword
        have noType := (find?_eq_none_iff typeName_listed).mpr notType
        unfold wordKind
        rw [noKeyword, noType]

end Lexical

end Shading
