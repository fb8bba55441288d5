import Shading.Proofs.Tree.Rows

/-!
Labels tell nodes of different forms apart.

A label is the name of a form, which has no blank, and behind it what tells the node from
others of its form. Names are made of word characters, so no label has an at sign or a
line feed.
-/

namespace Shading

/-! ### Texts that keep to a row -/

theorem Plain.append {first second : List Char} (firstPlain : Plain first)
    (secondPlain : Plain second) : Plain (first ++ second) :=
  List.forall_mem_append.mpr ⟨firstPlain, secondPlain⟩

theorem plain_of_class {accepts : Char → Bool} {text : List Char}
    (inside : ∀ character ∈ text, accepts character = true) (noSign : accepts '@' = false)
    (noFeed : accepts '\n' = false) : Plain text := by
  intro character among
  have accepted := inside character among
  constructor
  · intro same
    rw [same, noSign] at accepted
    cases accepted
  · intro same
    rw [same, noFeed] at accepted
    cases accepted

theorem plain_of_isWord {text : List Char}
    (inside : ∀ character ∈ text, Character.isWord character = true) : Plain text :=
  plain_of_class inside rfl rfl

theorem plain_toDigits (number : Nat) : Plain (Nat.toDigits 10 number) :=
  plain_of_class (fun _ among => Nat.isDigit_of_mem_toDigits (by decide) (by decide) among) rfl rfl

namespace Number

theorem Decimal.positional_plain (decimal : Decimal) : Plain decimal.positional := by
  have zeros : ∀ count, Plain (List.replicate count '0') := by
    intro count character among
    rw [(List.mem_replicate.mp among).2]
    decide
  have written := plain_toDigits decimal.digits
  unfold positional
  dsimp only
  by_cases whole : 0 ≤ decimal.exponent
  · rw [if_pos whole]
    exact written.append (zeros _)
  · rw [if_neg whole]
    generalize padding : List.replicate _ '0' ++ Nat.toDigits 10 decimal.digits = padded
    have paddedPlain : Plain padded := by
      rw [← padding]
      exact (zeros _).append written
    have wholePlain : ∀ count, Plain (padded.take count) :=
      fun count character among => paddedPlain character (List.mem_of_mem_take among)
    have fractionPlain :
        ∀ count, Plain ((padded.drop count).reverse.dropWhile (· == '0')).reverse := by
      intro count character among
      have kept := (List.dropWhile_suffix _).subset (List.mem_reverse.mp among)
      exact paddedPlain character (List.mem_of_mem_drop (List.mem_reverse.mp kept))
    split
    · exact wholePlain _
    · exact (wholePlain _).append (List.forall_mem_cons.mpr ⟨by decide, fractionPlain _⟩)

theorem Double.text_plain (double : Double) : Plain double.text.toList := by
  cases double with
  | notANumber => decide
  | infinite negative => cases negative <;> decide
  | finite negative significand exponent tight =>
      have magnitude : Plain (magnitudeText significand exponent tight) := by
        unfold magnitudeText
        split
        · decide
        · exact Decimal.positional_plain _
      have sign : Plain (if negative then "-" else "").toList := by
        cases negative <;> decide
      unfold text
      rw [String.toList_append, String.toList_ofList]
      exact sign.append magnitude

end Number

theorem plain_toString (number : Nat) : Plain (toString number).toList := by
  rw [Nat.toString_eq_ofList_toDigits, String.toList_ofList]
  exact plain_toDigits number

theorem Location.shown_plain (place : Location) : Plain place.shown.toList := by
  unfold shown
  rw [String.toList_append, String.toList_append]
  exact ((plain_toString _).append (by decide)).append (plain_toString _)

theorem Location.shown_injective {place other : Location} (same : place.shown = other.shown) :
    place = other := by
  have noColon : ∀ number : Nat, ':' ∉ (toString number).toList := by
    intro number among
    rw [Nat.toString_eq_ofList_toDigits, String.toList_ofList] at among
    cases Nat.isDigit_of_mem_toDigits (by decide) (by decide) among
  have digits_injective : ∀ {first second : Nat},
      (toString first).toList = (toString second).toList → first = second := by
    intro first second digits
    rw [Nat.toString_eq_ofList_toDigits, Nat.toString_eq_ofList_toDigits, String.toList_ofList,
      String.toList_ofList] at digits
    have numbers := congrArg (fun text => Nat.ofDigitChars 10 text 0) digits
    rw [Nat.ofDigitChars_ten_toDigits, Nat.ofDigitChars_ten_toDigits] at numbers
    exact numbers
  obtain ⟨line, column⟩ := place
  obtain ⟨otherLine, otherColumn⟩ := other
  have characters := congrArg String.toList same
  unfold shown at characters
  rw [String.toList_append, String.toList_append, String.toList_append, String.toList_append,
    List.append_assoc, List.append_assoc] at characters
  obtain ⟨lines, columns⟩ := part_unique (noColon _) (noColon _) characters
  cases Nat.succ.inj (digits_injective lines)
  cases Nat.succ.inj (digits_injective columns)
  rfl

/-! ### Tables of texts -/

namespace Operator

def all : List Operator :=
  [.arithmetic .add, .arithmetic .subtract, .arithmetic .multiply, .arithmetic .divide,
    .arithmetic .bitAnd, .arithmetic .bitOr, .arithmetic .bitXor, .arithmetic .bitNot,
    .boolean .equal, .boolean .notEqual, .boolean .less, .boolean .greater,
    .boolean .lessOrEqual, .boolean .greaterOrEqual, .boolean .and, .boolean .or, .boolean .not,
    .assign, .compoundAssign .add, .compoundAssign .subtract, .compoundAssign .multiply,
    .compoundAssign .divide, .compoundAssign .bitAnd, .compoundAssign .bitOr,
    .compoundAssign .bitXor, .compoundAssign .bitNot, .member, .index]

def ofText? (text : String) : Option Operator := all.find? (·.text == text)

theorem ofText?_text (operator : Operator) : ofText? operator.text = some operator := by
  rcases operator with symbol | symbol | _ | symbol | _ | _ <;> first | rfl | (cases symbol <;> rfl)

theorem text_injective {first second : Operator} (same : first.text = second.text) :
    first = second := by
  have found := congrArg ofText? same
  rw [ofText?_text, ofText?_text] at found
  exact Option.some.inj found

theorem text_plain (operator : Operator) : Plain operator.text.toList := by
  rcases operator with symbol | symbol | _ | symbol | _ | _ <;>
    first | decide | (cases symbol <;> decide)

end Operator

namespace ValueType

def ofWord? (text : String) : Option ValueType :=
  [int, matrix4x4, float, float2, float3, float4].find? (·.word == text)

theorem ofWord?_word (type : ValueType) : ofWord? type.word = some type := by
  cases type <;> rfl

theorem word_injective {first second : ValueType} (same : first.word = second.word) :
    first = second := by
  have found := congrArg ofWord? same
  rw [ofWord?_word, ofWord?_word] at found
  exact Option.some.inj found

theorem word_plain (type : ValueType) : Plain type.word.toList ∧ ' ' ∉ type.word.toList := by
  cases type <;> decide

end ValueType

/-! ### Forms -/

inductive Form where
  | number
  | truth (value : Bool)
  | memberName
  | declaration
  | pipeline (role : PipelineRole)
  | binary
  | unary
  | parenthesized
  | call
  | result
  | conditional
  | loop
  | void
deriving DecidableEq

namespace Form

def all : List Form :=
  [number, truth true, truth false, memberName, declaration, pipeline .uniform,
    pipeline .vertexInput, pipeline .varying, binary, unary, parenthesized, call, result,
    conditional, loop, void]

def name : Form → String
  | number => "Number"
  | truth true => "True"
  | truth false => "False"
  | memberName => "String"
  | declaration => "Variable"
  | pipeline .uniform => "Uniform"
  | pipeline .vertexInput => "VertexInput"
  | pipeline .varying => "Varying"
  | binary => "Infix"
  | unary => "Prefix"
  | parenthesized => "SubExpression"
  | call => "FunctionCall"
  | result => "Return"
  | conditional => "If"
  | loop => "While"
  | void => "Void"

def ofName? (text : String) : Option Form := all.find? (·.name == text)

theorem ofName?_name (form : Form) : ofName? form.name = some form := by
  cases form with
  | truth value => cases value <;> rfl
  | pipeline role => cases role <;> rfl
  | _ => rfl

theorem name_injective {first second : Form} (same : first.name = second.name) :
    first = second := by
  have found := congrArg ofName? same
  rw [ofName?_name, ofName?_name] at found
  exact Option.some.inj found

theorem name_clean (form : Form) : CleanLabel form.name.toList ∧ ' ' ∉ form.name.toList := by
  cases form with
  | truth value => cases value <;> exact ⟨⟨⟨_, _, rfl, rfl⟩, by decide⟩, by decide⟩
  | pipeline role => cases role <;> exact ⟨⟨⟨_, _, rfl, rfl⟩, by decide⟩, by decide⟩
  | _ => exact ⟨⟨⟨_, _, rfl, rfl⟩, by decide⟩, by decide⟩

end Form

namespace Expression

def form : Expression → Form
  | number _ _ => .number
  | truth value _ => .truth value
  | memberName _ _ => .memberName
  | declaration _ _ _ => .declaration
  | pipeline role _ _ => .pipeline role
  | binary _ _ _ _ => .binary
  | unary _ _ _ => .unary
  | parenthesized _ _ => .parenthesized
  | call _ _ _ => .call
  | result _ _ => .result
  | conditional _ _ _ _ => .conditional
  | loop _ _ _ => .loop
  | void _ => .void

theorem kindName_eq (tree : Expression) : tree.kindName = tree.form.name := by
  cases tree with
  | truth value place => cases value <;> rfl
  | pipeline role name place => cases role <;> rfl
  | _ => rfl

def detail : Expression → String
  | number value _ => " " ++ Number.text value
  | memberName name _ => " \"" ++ name ++ "\""
  | pipeline _ name _ => " \"" ++ name ++ "\""
  | declaration type name _ => " " ++ type.word ++ " " ++ name
  | binary operator _ _ _ => " " ++ operator.text
  | unary operator _ _ => " " ++ operator.text
  | call name arguments _ =>
    " \"" ++ name ++ "\"" ++ if arguments.isEmpty then " (no arguments)" else ""
  | _ => ""

theorem label_eq (tree : Expression) : tree.label = tree.form.name ++ tree.detail := by
  rw [← kindName_eq]
  cases tree <;> simp only [label, detail, String.append_assoc, String.append_empty]

def Worded : Expression → Prop
  | memberName name _ => ∀ character ∈ name.toList, Character.isWord character = true
  | declaration _ name _ => ∀ character ∈ name.toList, Character.isWord character = true
  | pipeline _ name _ => ∀ character ∈ name.toList, Character.isWord character = true
  | call name _ _ => ∀ character ∈ name.toList, Character.isWord character = true
  | _ => True

theorem detail_plain {tree : Expression} (worded : tree.Worded) : Plain tree.detail.toList := by
  have blank : Plain " ".toList := by decide
  have mark : Plain "\"".toList := by decide
  have opened : Plain " \"".toList := by decide
  cases tree with
  | number value place =>
      rw [detail, String.toList_append]
      exact blank.append (Number.Double.text_plain _)
  | memberName name place =>
      rw [detail, String.toList_append, String.toList_append]
      exact (opened.append (plain_of_isWord worded)).append mark
  | pipeline role name place =>
      rw [detail, String.toList_append, String.toList_append]
      exact (opened.append (plain_of_isWord worded)).append mark
  | declaration type name place =>
      rw [detail, String.toList_append, String.toList_append, String.toList_append]
      exact ((blank.append type.word_plain.1).append blank).append (plain_of_isWord worded)
  | binary operator left right place =>
      rw [detail, String.toList_append]
      exact blank.append operator.text_plain
  | unary operator operand place =>
      rw [detail, String.toList_append]
      exact blank.append operator.text_plain
  | call name values place =>
      have remark : Plain (if values.isEmpty then " (no arguments)" else "").toList := by
        cases values.isEmpty <;> decide
      rw [detail, String.toList_append, String.toList_append, String.toList_append]
      exact ((opened.append (plain_of_isWord worded)).append mark).append remark
  | _ => exact (by decide : Plain "".toList)

theorem label_clean {tree : Expression} (worded : tree.Worded) : CleanLabel tree.label.toList := by
  obtain ⟨⟨⟨first, others, written, noGuide⟩, namePlain⟩, _⟩ := tree.form.name_clean
  rw [label_eq, String.toList_append]
  constructor
  · refine ⟨first, others ++ tree.detail.toList, ?_, noGuide⟩
    rw [written, List.cons_append]
  · exact Plain.append namePlain (detail_plain worded)

theorem placeLabel_clean (located : Bool) (tree : Expression) :
    CleanPlace (tree.placeLabel located).toList := by
  cases located with
  | false => exact .inl rfl
  | true =>
      refine .inr ⟨tree.location.shown.toList, ?_, tree.location.shown_plain⟩
      rw [placeLabel, if_pos rfl, String.toList_append]
      rfl

theorem detail_cases (tree : Expression) :
    tree.detail.toList = [] ∨ ∃ others, tree.detail.toList = ' ' :: others := by
  cases tree with
  | number value place => exact .inr ⟨_, String.toList_append⟩
  | binary operator left right place => exact .inr ⟨_, String.toList_append⟩
  | unary operator operand place => exact .inr ⟨_, String.toList_append⟩
  | declaration type name place =>
      rw [detail, String.append_assoc, String.append_assoc]
      exact .inr ⟨_, String.toList_append⟩
  | memberName name place =>
      rw [detail, String.append_assoc]
      exact .inr ⟨_, String.toList_append⟩
  | pipeline role name place =>
      rw [detail, String.append_assoc]
      exact .inr ⟨_, String.toList_append⟩
  | call name values place =>
      rw [detail, String.append_assoc, String.append_assoc]
      exact .inr ⟨_, String.toList_append⟩
  | _ => exact .inl rfl

/-- The label of a node tells its form and its detail. -/
theorem label_injective {left right : Expression} (same : left.label = right.label) :
    left.form = right.form ∧ left.detail = right.detail := by
  have names : left.form.name = right.form.name := by
    have characters := congrArg String.toList same
    have leftBlank := left.form.name_clean.2
    have rightBlank := right.form.name_clean.2
    rw [label_eq, label_eq, String.toList_append, String.toList_append] at characters
    apply String.toList_inj.mp
    rcases left.detail_cases with leftNone | ⟨leftDetail, leftSome⟩
    · rcases right.detail_cases with rightNone | ⟨rightDetail, rightSome⟩
      · rwa [leftNone, rightNone, List.append_nil, List.append_nil] at characters
      · rw [leftNone, rightSome, List.append_nil] at characters
        rw [characters] at leftBlank
        simp at leftBlank
    · rcases right.detail_cases with rightNone | ⟨rightDetail, rightSome⟩
      · rw [leftSome, rightNone, List.append_nil] at characters
        rw [← characters] at rightBlank
        simp at rightBlank
      · rw [leftSome, rightSome] at characters
        exact (part_unique leftBlank rightBlank characters).1
  refine ⟨Form.name_injective names, ?_⟩
  rw [label_eq, label_eq, names] at same
  exact (String.append_right_inj _).mp same

end Expression

/-! ### Clean outlines -/

theorem CleanLabel.append {label behind : List Char} (clean : CleanLabel label)
    (plain : Plain behind) : CleanLabel (label ++ behind) := by
  obtain ⟨⟨first, others, rfl, noGuide⟩, inside⟩ := clean
  exact ⟨⟨first, others ++ behind, List.cons_append, noGuide⟩, Plain.append inside plain⟩

namespace Outline

theorem group_clean {name : String} {members : List Outline} (named : CleanLabel name.toList)
    (inside : ∀ member ∈ members, member.Clean) : (group name members).Clean := by
  cases members with
  | cons member others => exact .item named (.inl rfl) inside
  | nil =>
      refine .item ?_ (.inl rfl) inside
      rw [String.toList_append]
      exact named.append (by decide)

theorem arms_clean {conditions : List Outline} {blocks : List (List Outline)}
    (tests : ∀ condition ∈ conditions, condition.Clean)
    (bodies : ∀ block ∈ blocks, ∀ member ∈ block, member.Clean) :
    ∀ part ∈ arms conditions blocks, part.Clean := by
  have conditionName : CleanLabel "Condition".toList := ⟨⟨_, _, rfl, rfl⟩, by decide⟩
  have blockName : CleanLabel "Then".toList := ⟨⟨_, _, rfl, rfl⟩, by decide⟩
  induction conditions generalizing blocks with
  | nil => nofun
  | cons condition conditions ih =>
      cases blocks with
      | nil => nofun
      | cons block blocks =>
          obtain ⟨test, otherTests⟩ := List.forall_mem_cons.mp tests
          obtain ⟨body, otherBodies⟩ := List.forall_mem_cons.mp bodies
          have conditionClean := group_clean conditionName (List.forall_mem_singleton.mpr test)
          refine List.forall_mem_cons.mpr ⟨conditionClean, ?_⟩
          exact List.forall_mem_cons.mpr ⟨group_clean blockName body, ih otherTests otherBodies⟩

theorem otherwise_clean {last : Option (List Outline)}
    (inside : ∀ member ∈ last.getD [], member.Clean) : ∀ part ∈ otherwise last, part.Clean := by
  have name : CleanLabel "Else".toList := ⟨⟨_, _, rfl, rfl⟩, by decide⟩
  cases last with
  | none => nofun
  | some block => exact List.forall_mem_singleton.mpr (group_clean name inside)

end Outline

namespace Expression

mutual

theorem clean_outline {located : Bool} {tree : Expression} (worded : tree.Everywhere Worded) :
    (tree.outline located).Clean := by
  have inside := worded.inside
  have whole : ∀ parts, (∀ part ∈ parts, Outline.Clean part) → (tree.item located parts).Clean :=
    fun _ clean => .item (label_clean worded.here) (placeLabel_clean located tree) clean
  match tree with
  | .binary operator left right place =>
      obtain ⟨leftWorded, others⟩ := List.forall_mem_cons.mp inside
      refine whole _ (List.forall_mem_cons.mpr ⟨clean_outline leftWorded, ?_⟩)
      exact List.forall_mem_singleton.mpr (clean_outline (List.forall_mem_singleton.mp others))
  | .unary operator operand place =>
      apply whole
      exact List.forall_mem_singleton.mpr (clean_outline (List.forall_mem_singleton.mp inside))
  | .parenthesized inner place =>
      apply whole
      exact List.forall_mem_singleton.mpr (clean_outline (List.forall_mem_singleton.mp inside))
  | .result value place =>
      apply whole
      exact List.forall_mem_singleton.mpr (clean_outline (List.forall_mem_singleton.mp inside))
  | .call name values place =>
      have valuesWorded : ∀ value ∈ values, value.Everywhere Worded := inside
      exact whole _ (clean_outlines valuesWorded)
  | .conditional conditions blocks last place =>
      obtain ⟨arms, lastWorded⟩ := List.forall_mem_append.mp inside
      obtain ⟨testsWorded, blocksWorded⟩ := List.forall_mem_append.mp arms
      apply whole
      exact List.forall_mem_append.mpr
        ⟨Outline.arms_clean (clean_outlines testsWorded) (clean_blockOutlines blocksWorded),
          Outline.otherwise_clean (clean_otherwiseOutlines lastWorded)⟩
  | .loop condition block place =>
      have conditionName : CleanLabel "Condition".toList := ⟨⟨_, _, rfl, rfl⟩, by decide⟩
      have blockName : CleanLabel "Block".toList := ⟨⟨_, _, rfl, rfl⟩, by decide⟩
      obtain ⟨conditionWorded, blockWorded⟩ := List.forall_mem_cons.mp inside
      have conditionClean : (Outline.group "Condition" [condition.outline located]).Clean :=
        Outline.group_clean conditionName
          (List.forall_mem_singleton.mpr (clean_outline conditionWorded))
      have blockClean : (Outline.group "Block" (outlines located block)).Clean :=
        Outline.group_clean blockName (clean_outlines blockWorded)
      exact whole _ (List.forall_mem_cons.mpr
        ⟨conditionClean, List.forall_mem_singleton.mpr blockClean⟩)
  | .number _ _ => exact whole [] nofun
  | .truth _ _ => exact whole [] nofun
  | .memberName _ _ => exact whole [] nofun
  | .declaration _ _ _ => exact whole [] nofun
  | .pipeline _ _ _ => exact whole [] nofun
  | .void _ => exact whole [] nofun

theorem clean_outlines {located : Bool} {trees : List Expression}
    (worded : ∀ tree ∈ trees, tree.Everywhere Worded) :
    ∀ outline ∈ outlines located trees, outline.Clean := by
  match trees with
  | [] => nofun
  | tree :: others =>
      obtain ⟨first, following⟩ := List.forall_mem_cons.mp worded
      exact List.forall_mem_cons.mpr ⟨clean_outline first, clean_outlines following⟩

theorem clean_blockOutlines {located : Bool} {blocks : List (List Expression)}
    (worded : ∀ tree ∈ blocks.flatten, tree.Everywhere Worded) :
    ∀ block ∈ blockOutlines located blocks, ∀ outline ∈ block, outline.Clean := by
  match blocks with
  | [] => nofun
  | block :: others =>
      obtain ⟨blockWorded, othersWorded⟩ := List.forall_mem_append.mp worded
      exact List.forall_mem_cons.mpr
        ⟨clean_outlines blockWorded, clean_blockOutlines othersWorded⟩

theorem clean_otherwiseOutlines {located : Bool} {last : Option (List Expression)}
    (worded : ∀ tree ∈ last.getD [], tree.Everywhere Worded) :
    ∀ outline ∈ (otherwiseOutlines located last).getD [], outline.Clean := by
  match last with
  | none => nofun
  | some block =>
      have blockWorded : ∀ tree ∈ block, tree.Everywhere Worded := worded
      exact clean_outlines blockWorded

end

end Expression

end Shading
