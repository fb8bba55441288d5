import Shading.Proofs.CommandLine.Modes
import Shading.Proofs.Grammar.Foresight

/-!
The records of a program that was read.

A record of the lexer is written when its token is pulled, and a record of the parser when its
expression is complete. How both kinds are mixed shows how far the parser has read: where an
expression is complete, exactly one token behind it was pulled, unless there is none.
-/

namespace Shading

/-! ### Records of both kinds -/

namespace Log

def ofPart (part : Part) (records : List Record) : List Record :=
  records.filter fun record => record.part = part

/-- The records that are written while so many items are pulled and these trees completed: each
kind complete and in order. Before the record of a tree stand those of the trees in front of it,
and of the items that were pulled by then. -/
structure Traces (items : List TokenItem) (pulledAt : Nat → Nat) (trees : List Expression)
    (pulled : Nat) (records : List Record) : Prop where
  lexer : ofPart .lexer records = (items.take pulled).filterMap ofItem?
  parser : ofPart .parser records = trees.map completed
  placed : ∀ {index : Nat} {tree : Expression}, trees[index]? = some tree →
    ∃ before behind, records = before ++ completed tree :: behind ∧
      ofPart .parser before = (trees.take index).map completed ∧
      ofPart .lexer before = (items.take (pulledAt index)).filterMap ofItem?

variable {items : List TokenItem} {pulledAt : Nat → Nat} {trees : List Expression} {pulled : Nat}
  {records : List Record}

theorem ofPart_append (part : Part) (first second : List Record) :
    ofPart part (first ++ second) = ofPart part first ++ ofPart part second :=
  List.filter_append first second

theorem ofPart_ofItem (item : Option TokenItem) :
    ofPart .lexer (item.bind ofItem?).toList = (item.bind ofItem?).toList ∧
      ofPart .parser (item.bind ofItem?).toList = [] := by
  rcases item with _ | failure | token <;> exact ⟨rfl, rfl⟩

theorem ofItem_tokens (tokens : List Token) :
    (tokens.map Except.ok).filterMap ofItem? = tokens.map lexed := by
  rw [List.filterMap_map]
  change tokens.filterMap (some ∘ lexed) = _
  rw [List.filterMap_eq_map]

theorem take_pulled {item : Option TokenItem} (given : items[pulled]? = item) :
    (items.take (pulled + item.toList.length)).filterMap ofItem? =
      (items.take pulled).filterMap ofItem? ++ (item.bind ofItem?).toList := by
  subst given
  cases ahead : items[pulled]? with
  | none => exact (List.append_nil _).symm
  | some item =>
      rw [Option.toList_some, List.length_singleton, List.take_add_one, ahead, Option.toList_some,
        List.filterMap_append]
      cases item <;> rfl

namespace Traces

theorem start : Traces items pulledAt [] 0 [] :=
  ⟨rfl, rfl, nofun⟩

theorem pull (traces : Traces items pulledAt trees pulled records) {item : Option TokenItem}
    (given : items[pulled]? = item) :
    Traces items pulledAt trees (pulled + item.toList.length)
      (records ++ (item.bind ofItem?).toList) := by
  obtain ⟨ofLexer, ofParser⟩ := ofPart_ofItem item
  constructor
  · rw [ofPart_append, traces.lexer, ofLexer, take_pulled given]
  · rw [ofPart_append, traces.parser, ofParser, List.append_nil]
  · intro index tree found
    obtain ⟨before, behind, split, told, seen⟩ := traces.placed found
    exact ⟨before, behind ++ _, by rw [split, List.append_assoc, List.cons_append], told, seen⟩

theorem complete (traces : Traces items pulledAt trees pulled records)
    (now : pulledAt trees.length = pulled) (tree : Expression) :
    Traces items pulledAt (trees ++ [tree]) pulled (records ++ [completed tree]) := by
  constructor
  · rw [ofPart_append, traces.lexer]
    exact List.append_nil _
  · rw [ofPart_append, traces.parser, List.map_append]
    rfl
  · intro index found among
    by_cases earlier : index < trees.length
    · rw [List.getElem?_append_left earlier] at among
      obtain ⟨before, behind, split, told, seen⟩ := traces.placed among
      refine ⟨before, behind ++ [completed tree], ?_, ?_, seen⟩
      · rw [split, List.append_assoc, List.cons_append]
      · rw [told, List.take_append_of_le_length (Nat.le_of_lt earlier)]
    · rw [List.getElem?_append_right (Nat.le_of_not_lt earlier)] at among
      obtain ⟨last, same⟩ := List.getElem?_eq_some_iff.mp among
      have here : index = trees.length := by
        rw [List.length_singleton] at last
        omega
      subst here
      have tree_eq : tree = found := by simpa using same
      subst tree_eq
      refine ⟨records, [], rfl, ?_, ?_⟩
      · rw [traces.parser, List.take_left]
      · rw [traces.lexer, now]

end Traces

end Log

/-! ### The expressions of a program -/

namespace Parser

open Log (Journal Traces)

def afterExpressions {σ : Type} [Source σ TokenItem] (parser : Parser σ) (count : Nat) : Parser σ :=
  parser.behind (List.replicate count (.expression .lowest))

section Asking

variable {σ : Type} [Source σ TokenItem] {parser : Parser σ} {limit : Nat}

theorem afterExpressions_succ (parser : Parser σ) (count : Nat) :
    parser.afterExpressions (count + 1) =
      ((parser.afterExpressions count).expression .lowest).2 := by
  induction count generalizing parser with
  | zero => rfl
  | succ count ih => exact ih (parser.answer (.expression .lowest)).2

theorem expression_of_program {trees : List Expression} {index : Nat} {tree : Expression}
    (finished : (programWithin silent limit parser).1 = .ok trees)
    (found : trees[index]? = some tree) :
    (parser.afterExpressions index).expression .lowest =
        (.ok (some tree), parser.afterExpressions (index + 1)) ∧ tree.isVoid = false := by
  induction limit generalizing parser trees index with
  | zero =>
      cases finished
      cases found
  | succ limit ih =>
      have step := programWithin_step silent limit parser
      generalize programWithin silent (limit + 1) parser = answered at step finished
      cases step with
      | failed parsed | stray parsed => cases finished
      | ended parsed =>
          cases finished
          cases found
      | @element first after parsed solid =>
          obtain ⟨others, read, rfl⟩ := ok_of_map_cons finished
          have behind : ∀ count,
              parser.afterExpressions (count + 1) = after.afterExpressions count := by
            intro count
            change ((parser.answer (.expression .lowest)).2).afterExpressions count = _
            rw [answer, parsed]
          cases index with
          | zero =>
              cases found
              rw [behind 0]
              exact ⟨parsed, solid⟩
          | succ index =>
              rw [behind index, behind (index + 1)]
              exact ih read found

variable [LawfulSource σ]

theorem pending_of_program {trees : List Expression} (within : parser.pending.length < limit)
    (finished : (programWithin silent limit parser).1 = .ok trees) :
    (programWithin silent limit parser).2.pending = [] := by
  induction limit generalizing parser trees with
  | zero => omega
  | succ limit ih =>
      have step := programWithin_step silent limit parser
      generalize programWithin silent (limit + 1) parser = answered at step finished
      cases step with
      | failed parsed | stray parsed => cases finished
      | ended parsed =>
          have accepted := Reading.accepts_of_run parsed
          exact ((Grammar.expression_accepts_none (pending_within parser)).mp accepted).2
      | element parsed solid =>
          have progress := (reads_of_expression parsed).shorter solid
          obtain ⟨others, read, _⟩ := ok_of_map_cons finished
          exact ih (Nat.lt_of_lt_of_le progress (Nat.le_of_lt_succ within)) read

omit [LawfulSource σ] in
theorem Along.pulled_of_end {items : List TokenItem} (along : parser.Along items)
    (ended : parser.pending = []) : parser.pulled = items.length := by
  have free : parser.held = none := by
    unfold Lookahead.pending at ended
    exact Option.toList_eq_nil_iff.mp (List.append_eq_nil_iff.mp ended).1
  have within := along.within
  rw [along.left, List.drop_eq_nil_iff] at ended
  unfold Lookahead.pulled
  rw [free]
  exact Nat.le_antisymm within ended

theorem Along.pulled_of_program {items : List TokenItem} {program : Program}
    (along : parser.Along items) (finished : parser.program.1 = .ok program) :
    parser.program.2.pulled = items.length := by
  have left : parser.program.2.pending = [] :=
    pending_of_program (pending_within parser) (programNoting_ok.mp finished)
  exact ((keeps_along items).program along).pulled_of_end left

end Asking

/-! ### The journal of a program -/

variable {σ : Type} [Source σ TokenItem] [LawfulSource σ] {items : List TokenItem}
  {pulledAt : Nat → Nat} {done trees : List Expression} {parser : Parser (Journal σ)} {limit : Nat}

theorem Along.given {parser : Parser σ} (along : parser.Along items) (free : parser.held = none) :
    items[parser.pulled]? = (Source.pull parser.source).1 := by
  have looked := parser.peek_fst
  rw [along.left, List.head?_drop] at looked
  unfold Lookahead.peek at looked
  unfold Lookahead.pulled
  rw [free] at looked ⊢
  exact looked.symm

theorem keeps_traces (items : List TokenItem) (pulledAt : Nat → Nat) (done : List Expression) :
    Keeps fun parser : Parser (Journal σ) => parser.plain.Along items ∧
      Traces items pulledAt done parser.plain.pulled parser.source.records := by
  constructor
  · rintro parser ⟨along, traces⟩
    have further := (keeps_along items).peek along
    rw [peek_plain] at further
    refine ⟨further, ?_⟩
    obtain ⟨journal, held, taken, last⟩ := parser
    cases held with
    | some item => exact traces
    | none => exact traces.pull (along.given rfl)
  · rintro parser ⟨along, traces⟩
    have further := (keeps_along items).next along
    rw [next_plain] at further
    refine ⟨further, ?_⟩
    obtain ⟨⟨source, records⟩, held, taken, last⟩ := parser
    cases held with
    | some item => exact traces
    | none =>
        have pulled := traces.pull (along.given rfl)
        dsimp only [plain] at pulled ⊢
        unfold Lookahead.next
        dsimp only
        rw [Journal.pull_eq]
        generalize Source.pull source = answered at pulled ⊢
        rcases answered with ⟨_ | item, rest⟩ <;> exact pulled

/-- A program that is read with a journal leaves a trace of the items and of its expressions. -/
theorem traces_programWithin {base : Parser σ}
    (stands : parser.plain = base.afterExpressions done.length)
    (counts : ∀ index, pulledAt index = (base.afterExpressions (index + 1)).pulled)
    (along : parser.plain.Along items)
    (traces : Traces items pulledAt done parser.plain.pulled parser.source.records)
    (finished : (programWithin Journal.complete limit parser).1 = .ok trees) :
    Traces items pulledAt (done ++ trees)
      (programWithin Journal.complete limit parser).2.plain.pulled
      (programWithin Journal.complete limit parser).2.source.records := by
  induction limit generalizing parser done trees with
  | zero =>
      cases finished
      rw [List.append_nil]
      exact traces
  | succ limit ih =>
      have first := parser.expression_plain .lowest
      have kept := (keeps_traces items pulledAt done).expression .lowest ⟨along, traces⟩
      have step := programWithin_step Journal.complete limit parser
      generalize programWithin Journal.complete (limit + 1) parser = answered at step finished
      cases step with
      | failed parsed | stray parsed => cases finished
      | ended parsed =>
          rw [parsed] at kept
          cases finished
          rw [List.append_nil]
          exact kept.2
      | @element tree after parsed solid =>
          obtain ⟨others, read, rfl⟩ := ok_of_map_cons finished
          -- The record of the first tree is written before anything behind it is pulled.
          rw [parsed] at first kept
          obtain ⟨along, traces⟩ := kept
          have next : after.plain = base.afterExpressions (done.length + 1) := by
            rw [afterExpressions_succ, ← stands, first]
          have now : pulledAt done.length = after.plain.pulled := by rw [counts, next]
          have rest := @ih (done ++ [tree]) others (after.noting Journal.complete tree)
            (by rw [List.length_append]; exact next) along (traces.complete now tree) read
          rw [List.append_cons]
          exact rest

theorem traces_program (source : σ) {program : Program}
    (finished : ((ofSource (Journal.ofSource source)).programNoting Journal.complete).1 =
      .ok program) :
    Traces (Source.items source)
      (fun index => ((ofSource source).afterExpressions (index + 1)).pulled) program.expressions
      (Source.items source).length
      ((ofSource (Journal.ofSource source)).programNoting Journal.complete).2.source.records := by
  have begun : (ofSource (Journal.ofSource source)).plain =
      (ofSource source).afterExpressions ([] : List Expression).length := rfl
  have plain := program_plain (ofSource (Journal.ofSource source))
  rw [finished] at plain
  have all := (along_ofSource source).pulled_of_program (congrArg Prod.fst plain)
  have traces := traces_programWithin begun (fun _ => rfl) (along_ofSource source) .start
    (programNoting_ok.mp finished)
  rw [← all, show (ofSource source).program = _ from plain]
  exact traces

end Parser

/-! ### The records of a text -/

variable {source : String} {program : Program}

def parserAfter (source : String) (count : Nat) : Parser Lexer :=
  (Parser.ofSource (Lexer.ofString source)).afterExpressions count

theorem parserAfter_along (source : String) (count : Nat) :
    (parserAfter source count).Along (Source.items (Lexer.ofString source)) :=
  (Parser.keeps_along _).behind _ (Parser.along_ofSource _)

theorem items_of_parse (parsed : parse source = .ok program) :
    Source.items (Lexer.ofString source) = (tokensUntilError source).1.map Except.ok := by
  rw [items_eq_tokensUntilError, complete_of_parse parsed]
  exact List.append_nil _

theorem parserAfter_last {count : Nat} {tokens : List Token} {tree : Expression}
    (items : Source.items (Lexer.ofString source) = tokens.map Except.ok)
    (parsed : (parserAfter source count).expression .lowest =
      (.ok (some tree), parserAfter source (count + 1)))
    (solid : tree.isVoid = false) :
    ∃ (position : Nat) (token : Token), (parserAfter source (count + 1)).taken = position + 1 ∧
      tokens[position]? = some token ∧
        (parserAfter source (count + 1)).last = some (.ok token) := by
  have before := parserAfter_along source count
  have along := parserAfter_along source (count + 1)
  have progress := (Parser.reads_of_expression parsed).shorter solid
  rw [before.left, along.left, List.length_drop, List.length_drop] at progress
  have within := along.within
  obtain ⟨position, counted⟩ : ∃ position,
      (parserAfter source (count + 1)).taken = position + 1 :=
    Nat.exists_eq_add_one_of_ne_zero (by omega)
  have last := along.last
  rw [items, List.length_map] at within
  rw [items, ← List.map_take, List.getLast?_map, counted] at last
  have inside : position < tokens.length := by omega
  refine ⟨position, tokens[position], counted, List.getElem?_eq_getElem inside, ?_⟩
  rw [last, List.take_add_one, List.getElem?_eq_getElem inside, Option.toList_some,
    List.getLast?_concat]
  rfl

/-- A parser that is asked for one expression after the other answers with those of the program,
and each answer leaves the last token of its expression as the one taken last. -/
theorem answered_of_program (parsed : parse source = .ok program) {index : Nat} {tree : Expression}
    (found : program.expressions[index]? = some tree) :
    (parserAfter source index).expression .lowest =
        (.ok (some tree), parserAfter source (index + 1)) ∧
      ∃ (position : Nat) (token : Token),
        (parserAfter source (index + 1)).taken = position + 1 ∧
        (tokensUntilError source).1[position]? = some token ∧
        (parserAfter source (index + 1)).last = some (.ok token) := by
  obtain ⟨answered, solid⟩ := Parser.expression_of_program (Parser.programNoting_ok.mp parsed) found
  exact ⟨answered, parserAfter_last (items_of_parse parsed) answered solid⟩

/-- What is recorded of a text that is a program: every token and every expression, each where
exactly one token behind the expression was pulled. -/
theorem records_of_parse (parsed : parse source = .ok program) :
    let tokens := (tokensUntilError source).1
    let records := (Log.parsing source).2
    Log.ofPart .lexer records = tokens.map Log.lexed ∧
      Log.ofPart .parser records = program.expressions.map Log.completed ∧
      ∀ {index : Nat} {tree : Expression}, program.expressions[index]? = some tree →
        ∃ before behind, records = before ++ Log.completed tree :: behind ∧
          Log.ofPart .parser before = (program.expressions.take index).map Log.completed ∧
          Log.ofPart .lexer before =
            (tokens.take ((parserAfter source (index + 1)).taken + 1)).map Log.lexed := by
  intro tokens records
  have items := items_of_parse parsed
  have traces : Log.Traces (Source.items (Lexer.ofString source))
      (fun index => (parserAfter source (index + 1)).pulled) program.expressions
      (Source.items (Lexer.ofString source)).length records :=
    Parser.traces_program (Lexer.ofString source) ((Log.parsing_fst source).trans parsed)
  refine ⟨?_, traces.parser, ?_⟩
  · rw [traces.lexer, List.take_length, items, Log.ofItem_tokens]
  · intro index tree found
    obtain ⟨before, behind, split, told, seen⟩ := traces.placed found
    refine ⟨before, behind, split, told, ?_⟩
    have looked := Parser.looked_of_expression (answered_of_program parsed found).1
    have pulled := (parserAfter_along source (index + 1)).pulled_of_looked looked
    rw [items, List.length_map] at pulled
    rw [seen, pulled, items, ← List.map_take, Log.ofItem_tokens, ← List.take_eq_take_min]

end Shading
