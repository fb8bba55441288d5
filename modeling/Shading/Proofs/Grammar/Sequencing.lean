import Shading.Proofs.Grammar.Displacement
import Shading.Proofs.Grammar.Extension

/-!
Programs in a row.

Where a program is followed by a semicolon, reading it stops there instead of at the
end, with nothing on hold behind the semicolon; what follows is read as if it stood
alone.
-/

namespace Shading

open Grammar

namespace Parser

variable {parser : Parser (List TokenItem)} {limit : Nat} {bound : Precedence}
  {place : Location} {rest : List TokenItem}

theorem run_expression_separator
    (ahead : parser.pending = .ok ⟨.mark .semicolon, place⟩ :: rest) :
    ∃ after : Parser (List TokenItem), after.pending = rest ∧ after.held = none ∧
      ∀ limit bound, (Grammar.expression (limit + 1) bound).run parser =
        (Grammar.expression limit bound).run after := by
  have shown := parser.peek_fst
  have kept := parser.peek_pending
  rcases peeked : parser.peek with ⟨answer, looked⟩
  rw [peeked, ahead] at shown kept
  have given := looked.next_fst
  have left := looked.next_pending
  have free := looked.next_held
  rcases taken : looked.next with ⟨item, after⟩
  rw [taken, kept] at given left
  rw [taken] at free
  cases shown
  cases given
  refine ⟨after, left, free, fun limit bound => ?_⟩
  change (Reading.look _).run parser = _
  rw [Reading.run, peeked]
  change (Reading.take _).run looked = _
  rw [Reading.run, taken]
  rfl

theorem program_congr {other : Parser (List TokenItem)}
    (same : parser.expression .lowest = other.expression .lowest) :
    parser.program = other.program := by
  have enough : parser.pending.length <
      parser.pending.length + other.pending.length + 1 := by omega
  have enoughOther : other.pending.length <
      parser.pending.length + other.pending.length + 1 := by omega
  rw [program_eq_run enough enough, program_eq_run enoughOther enoughOther]
  rw [expression_eq_run enough, expression_eq_run enoughOther] at same
  have alike : (programForm (parser.pending.length + other.pending.length + 1)
        (parser.pending.length + other.pending.length + 1)).run parser =
      (programForm (parser.pending.length + other.pending.length + 1)
        (parser.pending.length + other.pending.length + 1)).run other := by
    rw [programForm]
    change ((Grammar.expression _ _).andThen _).run parser =
      ((Grammar.expression _ _).andThen _).run other
    rw [Reading.run_andThen, Reading.run_andThen, same]
  rw [alike]

theorem program_separator (ahead : parser.pending = .ok ⟨.mark .semicolon, place⟩ :: rest) :
    ∃ after : Parser (List TokenItem), after.pending = rest ∧ after.held = none ∧
      parser.program = after.program := by
  obtain ⟨after, left, free, ran⟩ := run_expression_separator ahead
  refine ⟨after, left, free, program_congr ?_⟩
  have shorter : after.pending.length < rest.length + 1 := by
    rw [left]
    exact Nat.lt_succ_self _
  have enough : parser.pending.length < rest.length + 1 + 1 := by
    rw [ahead]
    exact Nat.lt_succ_self _
  rw [expression_eq_run enough, expression_eq_run shorter]
  exact ran (rest.length + 1) .lowest

theorem program_expression {tree : Expression}
    (derived : ReadsExpression .lowest parser.pending tree rest) (solid : tree.isVoid = false) :
    ∃ after : Parser (List TokenItem), after.pending = rest ∧
      parser.program.1 = after.program.1.map fun program => ⟨tree :: program.expressions⟩ := by
  obtain ⟨after, parsed, left⟩ := expression_of_reads derived
  refine ⟨after, left, ?_⟩
  have progress := derived.shorter solid
  have enough : parser.pending.length < parser.pending.length + 1 := Nat.lt_succ_self _
  have enoughAfter : after.pending.length < parser.pending.length + 1 := by
    rw [left]
    omega
  have within : after.pending.length < parser.pending.length := by
    rw [left]
    exact progress
  rw [program_eq_run enough enough, program_eq_run enoughAfter within]
  rw [expression_eq_run enough] at parsed
  dsimp only
  rw [programForm]
  change (((Grammar.expression _ _).andThen _).run parser).1.map _ = _
  rw [Reading.run_andThen, parsed]
  dsimp only
  rw [programTurn_solid solid]
  change (((programForm _ _).andThen _).run after).1.map _ = _
  rw [Reading.run_andThen]
  rcases (programForm (parser.pending.length + 1) parser.pending.length).run after with
    ⟨failure | trees, stopped⟩ <;> rfl

/-- Behind a program and a semicolon, nothing is on hold, and what follows is read as
if it stood alone. -/
theorem program_behind {input : List TokenItem} {trees : List Expression}
    (derived : ReadsProgram input trees)
    (pending : parser.pending = input ++ .ok ⟨.mark .semicolon, place⟩ :: rest) :
    ∃ after : Parser (List TokenItem), after.pending = rest ∧ after.held = none ∧
      parser.program.1 = after.program.1.map fun program => ⟨trees ++ program.expressions⟩ := by
  induction derived generalizing parser with
  | @finish input separators =>
      induction input generalizing parser with
      | nil =>
          obtain ⟨after, left, free, same⟩ := program_separator pending
          refine ⟨after, left, free, ?_⟩
          rw [same]
          cases after.program.1 <;> rfl
      | cons item others ih =>
          obtain ⟨⟨found, rfl⟩, separatorsBehind⟩ := List.forall_mem_cons.mp separators
          obtain ⟨behind, left, _, same⟩ := program_separator pending
          obtain ⟨after, leftAfter, free, ran⟩ := ih separatorsBehind left
          exact ⟨after, leftAfter, free, by rw [same, ran]⟩
  | @expression input middle tree others following solid _ ih =>
      have ends : Ahead endsTree (.ok ⟨.mark .semicolon, place⟩ :: rest) := .mark rfl nofun
      have extended := following.append fun _ => ends
      rw [← pending] at extended
      obtain ⟨behind, left, ran⟩ := program_expression extended solid
      obtain ⟨after, leftAfter, free, ranAfter⟩ := ih left
      refine ⟨after, leftAfter, free, ?_⟩
      rw [ran, ranAfter]
      cases after.program.1 <;> rfl

/-! ### The second program -/

variable {base other : Parser (List TokenItem)} {items : List TokenItem}
  {move : Location → Location}

/-- A program, a semicolon and further items elsewhere are the two programs in a row. -/
theorem program_sequence {input : List TokenItem} {trees : List Expression}
    (derived : ReadsProgram input trees) :
    (Trail.start.onto base (input ++ .ok ⟨.mark .semicolon, place⟩ ::
        items.map (relocateItem move))).program.1 =
      (((Trail.start.onto other items).program.1.map (Program.relocate move)).mapError
        (SyntaxError.relocate move)).map fun program => ⟨trees ++ program.expressions⟩ := by
  have pending : (Trail.start.onto base (input ++ .ok ⟨.mark .semicolon, place⟩ ::
      items.map (relocateItem move))).pending =
        input ++ .ok ⟨.mark .semicolon, place⟩ :: items.map (relocateItem move) :=
    pending_onto_start
  obtain ⟨after, left, free, ran⟩ := program_behind derived pending
  have again : after = Trail.start.onto after (items.map (relocateItem move)) :=
    eq_onto_start left free
  have second : after.program.1 =
      ((Trail.start.onto other items).program.1.map (Program.relocate move)).mapError
        (SyntaxError.relocate move) := by
    rw [again]
    exact program_relocate
  rw [ran, second]

end Parser

end Shading
