import Shading.Proofs.Grammar.Passes

/-!
How deep expressions are nested.

The limit of an expression bounds its nesting and its repetitions alike. Here both are told
apart, and what stands below the deepest expression is left open. With one more level than there
are items it is never reached, because an expression is begun inside another one only behind a
token.
-/

namespace Shading.Grammar

open Reading

/-- The next expression, with at most `depth` expressions inside each other and a floor below
them. The limit is that of every repetition. -/
def nested (floor : Inner) (limit : Nat) : Nat → Inner
  | 0 => floor
  | depth + 1 => fun bound => do
    match ← Reading.peek with
    | none => pure none
    | some token => startingWith (nested floor limit depth) limit bound token

variable {inner other floor : Inner} {size limit : Nat}

/-- With fewer items than levels, the floor below the deepest expression does not show. -/
theorem nested_alike (floor : Inner) (limit depth another : Nat) :
    Alike (min another (min depth limit)) (expression another) (nested floor limit depth) := by
  have faithful : ∀ another depth,
      Faithful (expression another) (min another (min depth limit)) := by
    intro another depth bound input rest tree shorter
    exact expression_faithful another (by omega)
  induction depth generalizing another with
  | zero =>
      refine ⟨faithful another 0, fun shorter => ?_⟩
      omega
  | succ depth ih =>
      refine ⟨faithful another (depth + 1), ?_⟩
      intro σ _ _ parser bound shorter
      cases another with
      | zero => omega
      | succ another =>
          rw [expression, nested]
          refine run_peek_congr fun {answer after} kept _ => ?_
          rw [← kept] at shorter
          cases answer with
          | none => rfl
          | some token => exact (ih another).startingWith (by omega) (by omega) (by omega)

end Shading.Grammar

namespace Shading.Parser

open Grammar

variable {σ : Type} [Source σ TokenItem] [LawfulSource σ] {parser : Parser σ} {limit depth : Nat}

theorem expression_eq_nested (floor : Inner) (within : parser.pending.length < limit)
    (enough : parser.pending.length < depth) (bound : Precedence) :
    parser.expression bound = (nested floor limit depth bound).run parser := by
  rw [expression_eq_run (Nat.lt_succ_self _)]
  exact (nested_alike floor limit depth (parser.pending.length + 1)).same (by omega)

theorem program_eq_nested (floor : Inner) {count : Nat} (beyond : Unit → Reading (List Expression))
    (within : parser.pending.length < limit) (enough : parser.pending.length < depth)
    (more : parser.pending.length < count) :
    parser.program =
      let (trees, after) :=
        (Reading.passes (programPass (nested floor limit depth)) beyond count ()).run parser
      (trees.map Program.mk, after) := by
  have alike := nested_alike floor limit depth (parser.pending.length + 1)
  have productive := Faithful.programPass alike.faithful
  have same : ∀ {other : Parser σ} {state : Unit},
      other.pending.length < min (parser.pending.length + 1) (min depth limit) →
        (programPass (Grammar.expression (parser.pending.length + 1)) state).run other =
          (programPass (nested floor limit depth) state).run other :=
    fun shorter => Reading.run_bind_congr (alike.same shorter) fun _ => rfl
  have room : parser.pending.length < parser.pending.length + 1 := Nat.lt_succ_self _
  have looped : (programForm (parser.pending.length + 1) (parser.pending.length + 1)).run parser =
      (Reading.passes (programPass (nested floor limit depth)) beyond count ()).run parser := by
    rw [programForm_eq_passes _ ()]
    exact Reading.passes_congr (fun state => (productive state).settles) same (by omega) room more
      ()
  rw [program_eq_run room room, looped]

end Shading.Parser
