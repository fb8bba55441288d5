import Shading.Proofs.Grammar.OperandRoundTrip

/-!
Derivations and what is added behind them.

A derivation looks no further than one item behind its tree. So items can be added
behind its rest, whatever they are; only where the rest was the end must they begin
with something that ends a tree as well.
-/

namespace Shading.Grammar

variable {more : List TokenItem}

theorem Ahead.append {test : Token.Kind → Prop} {input : List TokenItem}
    (ahead : Ahead test input) (added : input = [] → Ahead test more) :
    Ahead test (input ++ more) := by
  rcases input with _ | ⟨failure | token, later⟩
  · exact added rfl
  · exact ahead
  · exact ahead

theorem Takes.rest_of_nil {input rest : List TokenItem} {kinds : List Token.Kind}
    (taken : Takes input kinds rest) (ended : input = []) : rest = [] := by
  have less := taken.length_le
  rw [ended] at less
  exact List.eq_nil_of_length_eq_zero (Nat.le_zero.mp less)

theorem ReadsAccesses.rest_of_nil {start : Location} {left tree : Expression}
    {input rest : List TokenItem} (derived : ReadsAccesses start left input tree rest)
    (ended : input = []) : rest = [] := by
  obtain ⟨_, taken, _⟩ := derived.takes
  exact taken.rest_of_nil ended

theorem ReadsChain.rest_of_nil {bound : Precedence} {start : Location} {left tree : Expression}
    {input rest : List TokenItem} (derived : ReadsChain bound start left input tree rest)
    (ended : input = []) : rest = [] := by
  obtain ⟨_, taken, _⟩ := derived.takes
  exact taken.rest_of_nil ended

theorem ReadsExpression.input_ne_nil {bound : Precedence} {input rest : List TokenItem}
    {tree : Expression} (derived : ReadsExpression bound input tree rest) : input ≠ [] := by
  cases derived <;> exact List.cons_ne_nil _ _

theorem ReadsArguments.input_ne_nil {standing : ArgumentPlace} {input rest : List TokenItem}
    {values : List Expression} (derived : ReadsArguments standing input values rest) :
    input ≠ [] := by
  cases derived <;> exact List.cons_ne_nil _ _

theorem ReadsBlock.input_ne_nil {input rest : List TokenItem} {body : List Expression}
    (derived : ReadsBlock input body rest) : input ≠ [] := by
  cases derived with
  | close following => exact following.input_ne_nil
  | element following _ _ => exact following.input_ne_nil

mutual

theorem ReadsExpression.append {bound : Precedence} {input rest : List TokenItem}
    {tree : Expression} (derived : ReadsExpression bound input tree rest)
    (added : rest = [] → Ahead endsTree more) :
    ReadsExpression bound (input ++ more) tree (rest ++ more) := by
  match derived with
  | .separator following => exact .separator (following.append added)
  | .brace => exact .brace
  | .statement form accessed =>
      exact .statement (form.append fun ended => added (accessed.rest_of_nil ended))
        (accessed.append added)
  | .operand form accessed chained =>
      have addedBehind := fun ended => added (chained.rest_of_nil ended)
      exact .operand (form.append fun ended => addedBehind (accessed.rest_of_nil ended))
        (accessed.append addedBehind) (chained.append added)

theorem ReadsOperand.append {token : Token} {input rest : List TokenItem} {tree : Expression}
    (derived : ReadsOperand token input tree rest) (added : rest = [] → Ahead endsTree more) :
    ReadsOperand token (input ++ more) tree (rest ++ more) := by
  match derived with
  | .number => exact .number
  | .truth => exact .truth
  | .falsehood => exact .falsehood
  | .declaration => exact .declaration
  | .pipeline named => exact .pipeline named
  | .call listed => exact .call listed.append
  | .unary stands before following => exact .unary stands before (following.append added)
  | .parenthesized following => exact .parenthesized (following.append nofun)

theorem ReadsAccesses.append {start : Location} {left tree : Expression}
    {input rest : List TokenItem} (derived : ReadsAccesses start left input tree rest)
    (added : rest = [] → Ahead endsTree more) :
    ReadsAccesses start left (input ++ more) tree (rest ++ more) := by
  match derived with
  | .stop ahead => exact .stop (ahead.append fun ended => (added ended).imp endsTree.noAccess)
  | .member others => exact .member (others.append added)
  | .index following others => exact .index (following.append nofun) (others.append added)

theorem ReadsChain.append {bound : Precedence} {start : Location} {left tree : Expression}
    {input rest : List TokenItem} (derived : ReadsChain bound start left input tree rest)
    (added : rest = [] → Ahead endsTree more) :
    ReadsChain bound start left (input ++ more) tree (rest ++ more) := by
  match derived with
  | .stop ahead => exact .stop (ahead.append fun ended => (added ended).imp fun ends => .inl ends.1)
  | .extend stands between tighter following others =>
      exact .extend stands between tighter
        (following.append fun ended => added (others.rest_of_nil ended)) (others.append added)

theorem ReadsArguments.append {standing : ArgumentPlace} {input rest : List TokenItem}
    {values : List Expression} (derived : ReadsArguments standing input values rest) :
    ReadsArguments standing (input ++ more) values (rest ++ more) := by
  match derived with
  | .close complete => exact .close complete
  | .comma others => exact .comma others.append
  | .argument expected begins following others =>
      exact .argument expected begins
        (following.append fun ended => absurd ended others.input_ne_nil) others.append

theorem ReadsStatement.append {token : Token} {input rest : List TokenItem} {tree : Expression}
    (derived : ReadsStatement token input tree rest) (added : rest = [] → Ahead endsTree more) :
    ReadsStatement token (input ++ more) tree (rest ++ more) := by
  match derived with
  | .result following => exact .result (following.append added)
  | .conditional begun continued => exact .conditional begun.append (continued.append added)
  | .loop armed => exact .loop armed.append

theorem ReadsArm.append {input rest : List TokenItem} {armed : Arm}
    (derived : ReadsArm input armed rest) : ReadsArm (input ++ more) armed (rest ++ more) := by
  match derived with
  | .arm following blocked => exact .arm (following.append nofun) blocked.append

theorem ReadsFurtherArms.append {input rest : List TokenItem} {others : List Arm}
    {otherwise : Option (List Expression)}
    (derived : ReadsFurtherArms input others otherwise rest)
    (added : rest = [] → Ahead endsTree more) :
    ReadsFurtherArms (input ++ more) others otherwise (rest ++ more) := by
  match derived with
  | .stop ahead => exact .stop (ahead.append fun ended => (added ended).imp endsTree.noFurtherArm)
  | .further armed continued => exact .further armed.append (continued.append added)
  | .last blocked => exact .last blocked.append

theorem ReadsBlock.append {input rest : List TokenItem} {body : List Expression}
    (derived : ReadsBlock input body rest) : ReadsBlock (input ++ more) body (rest ++ more) := by
  match derived with
  | .close following => exact .close (following.append nofun)
  | .element following solid blocked =>
      exact .element (following.append fun ended => absurd ended blocked.input_ne_nil) solid
        blocked.append

end

end Shading.Grammar
