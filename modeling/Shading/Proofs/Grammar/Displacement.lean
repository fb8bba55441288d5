import Shading.Proofs.Errors
import Shading.Proofs.Grammar.Relocation

/-!
Programs of tokens that stand elsewhere.

Moving the tokens of a program moves its tree, or its error, and changes nothing else. An
error needs more than that nothing looks at places: it has to stand at a token, since the
place that stands in for a last token would not move along.
-/

namespace Shading

open Grammar

namespace Parser

variable {base other : Parser (List TokenItem)} {items later laterOther : List TokenItem}
  {move : Location → Location}

theorem failure_relocate {halt : Halt} {after : Trail} (justified : halt.Justified after) :
    (halt.relocate move).failure ((after.relocate move).onto base later).lastPlace =
      (halt.failure (after.onto other laterOther).lastPlace).relocate move := by
  cases justified with
  | @ended fault before last isEnd =>
      have moved : (Trail.relocate move ⟨before ++ [.ok last], some none⟩).taken =
          before.map (relocateItem move) ++ [.ok (last.relocate move)] := List.map_append
      unfold Halt.relocate Halt.failure SyntaxError.relocate
      dsimp only
      rw [Trail.lastPlace_onto moved, Trail.lastPlace_onto rfl]
      rfl
  | _ => rfl

/-- Items that stand elsewhere are read as the same program or error elsewhere, and as many
of them are pulled. -/
theorem program_displaced (base other : Parser (List TokenItem)) (items : List TokenItem)
    (move : Location → Location) :
    (Trail.start.onto base (items.map (relocateItem move))).program.1 =
        ((Trail.start.onto other items).program.1.map (Program.relocate move)).mapError
          (SyntaxError.relocate move) ∧
      ∃ count, (Trail.start.onto other items).program.2.pulled = other.taken + count ∧
        (Trail.start.onto base (items.map (relocateItem move))).program.2.pulled =
          base.taken + count := by
  have enough : items.length < items.length + 1 := Nat.lt_succ_self _
  have enoughMoved : (items.map (relocateItem move)).length < items.length + 1 := by
    rw [List.length_map]
    exact enough
  obtain ⟨ending, after, later, explored, fits, split, ran, justified⟩ :=
    program_explored other enough
  have moved : (programForm (items.length + 1) (items.length + 1)).Explores .start
      ((ending.map (List.map (Expression.relocate move))).mapError (Halt.relocate move))
        (after.relocate move) := programForm_moved.explores explored
  have fitsMoved : (after.relocate move).Fits (later.map (relocateItem move)) := by
    intro ended
    have unmoved : after.ahead = some none := by
      obtain ⟨taken, ahead⟩ := after
      rcases ahead with _ | _ | item
      · cases ended
      · rfl
      · cases ended
    rw [fits unmoved]
    rfl
  have splitMoved : items.map (relocateItem move) =
      (after.relocate move).shown ++ later.map (relocateItem move) := by
    rw [Trail.relocate_shown, ← List.map_append, ← split]
  rw [program_of_explored moved fitsMoved splitMoved enoughMoved, ran]
  constructor
  · cases ending with
    | ok trees => rfl
    | error halt => exact congrArg Except.error (failure_relocate (justified halt rfl))
  · have shown : (after.relocate move).shown.length = after.shown.length := by
      rw [Trail.relocate_shown, List.length_map]
    refine ⟨after.shown.length, pulled_onto after other later, ?_⟩
    rw [← shown]
    exact pulled_onto (after.relocate move) base _

theorem program_relocate :
    (Trail.start.onto base (items.map (relocateItem move))).program.1 =
      ((Trail.start.onto other items).program.1.map (Program.relocate move)).mapError
        (SyntaxError.relocate move) :=
  (program_displaced base other items move).1

theorem program_anywhere :
    (Trail.start.onto base items).program.1 = (Trail.start.onto other items).program.1 := by
  have kept : items.map (relocateItem id) = items := by
    apply List.map_id''
    intro item
    cases item <;> rfl
  have moved := @program_relocate base other items id
  have again := @program_relocate other other items id
  rw [kept] at moved again
  rw [moved, ← again]

end Parser

/-- Moving the tokens moves the tree or the error that is read from them, and leaves the
number of tokens that are pulled. -/
theorem readTokens_relocate (move : Location → Location) (tokens : List Token) :
    readTokens (tokens.map (Token.relocate move)) =
      (((readTokens tokens).1.map (Program.relocate move)).mapError (SyntaxError.relocate move),
        (readTokens tokens).2) := by
  have items : (tokens.map (Token.relocate move)).map Except.ok =
      (tokens.map Except.ok : List TokenItem).map (relocateItem move) := by
    rw [List.map_map, List.map_map]
    rfl
  obtain ⟨outcome, count, pulled, pulledMoved⟩ :=
    Parser.program_displaced (Lookahead.ofSource []) (Lookahead.ofSource [])
      (tokens.map Except.ok) move
  rw [readTokens_eq_items, readTokens_eq_items, items, outcome, pulled, pulledMoved]

example (move : Location → Location) :
    readTokens [⟨.keyword .return, move .origin⟩] =
      (.error ⟨move .origin, .expectedExpression⟩, 1) := rfl

end Shading
