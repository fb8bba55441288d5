import Shading.Proofs.Composition
import Shading.Proofs.Grammar.Stamps
import Shading.Proofs.Tree.Resemblance

/-!
Printed trees of programs that were parsed.

The names in a parsed program are names among its tokens, so they are words. With this
the printed tree of every parsed program determines it.
-/

namespace Shading

/-! ### Names of parsed programs -/

def WordNames (kinds : List Token.Kind) : Prop :=
  ∀ name, .name name ∈ kinds → ∀ character ∈ name.toList, Character.isWord character = true

theorem Expression.worded_of_spelling {node : Expression}
    (named : WordNames (node.spelling .tight)) : node.Worded := by
  cases node with
  | memberName name place => exact named name List.mem_cons_self
  | declaration type name place => exact named name (by simp [spelling])
  | pipeline role name place => exact named name (by simp [spelling])
  | call name values place => exact named name (by simp [spelling])
  | _ => trivial

mutual

theorem Stamped.drawable {tree : Expression} {tokens : List Token} {behind : List TokenItem}
    (stamped : Stamped tree tokens behind) (named : WordNames (tokens.map Token.kind)) :
    tree.Everywhere Expression.Drawable := by
  match stamped with
  | .void => exact .node ⟨trivial, trivial⟩ nofun
  | .node solid paired place laid =>
      have worded : tree.Worded := by
        apply Expression.worded_of_spelling
        rw [← Expression.spelling_segments, ← laid.kinds]
        exact named
      have parts := laid.drawable named
      refine .node ⟨paired, worded⟩ ?_
      intro child among
      obtain ⟨role, standing⟩ := Expression.segment_of_child paired among
      exact parts _ standing role child rfl

theorem Laid.drawable {segments : List Segment} {tokens : List Token} {behind : List TokenItem}
    (laid : Laid segments tokens behind) (named : WordNames (tokens.map Token.kind)) :
    ∀ segment ∈ segments, ∀ role part, segment = .tree role part →
      part.Everywhere Expression.Drawable := by
  match laid with
  | .nothing => nofun
  | .token others =>
      have namedRest := fun name among => named name (List.mem_cons_of_mem _ among)
      exact List.forall_mem_cons.mpr ⟨nofun, others.drawable namedRest⟩
  | .tree _ stamped others =>
      rw [List.map_append] at named
      have namedFirst := fun name among => named name (List.mem_append_left _ among)
      have namedRest := fun name among => named name (List.mem_append_right _ among)
      have first := stamped.drawable namedFirst
      refine List.forall_mem_cons.mpr ⟨?_, others.drawable namedRest⟩
      rintro role part ⟨⟩
      exact first

end

namespace Lexical

theorem WordText.name_run {run : List Char} {name : String} (written : WordText run (.name name)) :
    name.toList = run := by
  cases written with
  | name _ _ => exact String.toList_ofList

theorem Lexeme.name_word {run rest : List Char} {name : String}
    (found : Lexeme run (.name name) rest) :
    ∀ character ∈ name.toList, Character.isWord character = true := by
  cases found with
  | operator written _ => cases written
  | word written inside _ _ _ =>
      rw [written.name_run]
      exact inside

theorem Piece.names_word {pieces : List Piece} (legal : Piece.Legal pieces) (place : Location) :
    WordNames ((Piece.tokens place pieces).map Token.kind) := by
  induction pieces generalizing place with
  | nil => nofun
  | cons piece others ih =>
      obtain ⟨found, _, legalOthers⟩ := legal
      intro name among
      rcases List.mem_cons.mp among with here | later
      · have kind : piece.kind = .name name := here.symm
        rw [kind] at found
        exact found.name_word
      · exact ih legalOthers _ name later

end Lexical

/-- Every program that is parsed from a text is drawable. -/
theorem drawable_of_parse {source : String} {program : Program}
    (parsed : parse source = .ok program) : program.Everywhere Expression.Drawable := by
  obtain ⟨leading, pieces, _, legal, _, derived⟩ := pieces_of_parse parsed
  have laid := laid_of_parseTokens (parseTokens_iff.mpr derived)
  generalize place : Location.origin.afterAll leading = start at laid
  have named : WordNames ((solidTokens (Lexical.Piece.tokens start pieces)).map Token.kind) := by
    intro name among
    obtain ⟨token, kept, kind⟩ := List.mem_map.mp among
    exact Lexical.Piece.names_word legal start name
      (List.mem_map.mpr ⟨token, (List.mem_filter.mp kept).1, kind⟩)
  intro tree among
  exact laid.drawable named _ (List.mem_map_of_mem among) _ tree rfl

/-- Two programs whose names are words and whose conditionals have as many blocks as
conditions are printed alike without places if and only if they are equal up to places,
and with places if and only if they are equal; numbers with the same text count as equal.
Every program that is parsed from a text is such a program. -/
theorem printed_tree_determines :
    (∀ {left right : Program}, left.Everywhere Expression.Drawable →
      right.Everywhere Expression.Drawable →
        (left.tree false = right.tree false ↔ left.Resembles false right) ∧
        (left.tree true = right.tree true ↔ left.Resembles true right)) ∧
    ∀ {source : String} {program : Program}, parse source = .ok program →
      program.Everywhere Expression.Drawable := by
  refine ⟨?_, drawable_of_parse⟩
  intro left right leftDrawable rightDrawable
  constructor
  · exact Program.tree_eq_iff leftDrawable rightDrawable
  · exact Program.tree_eq_iff leftDrawable rightDrawable

def emptyLoopAt (column : Nat) : Program :=
  ⟨[.loop (.truth true ⟨0, column + 7⟩) [] ⟨0, column⟩]⟩

/-- A blank in front of a program is seen only where places are shown. -/
theorem printed_tree_determines_of_emptyLoop :
    (parse "while (true) { }" = .ok (emptyLoopAt 0) ∧
      parse " while (true) { }" = .ok (emptyLoopAt 1)) ∧
    ((emptyLoopAt 0).tree false = (emptyLoopAt 1).tree false ∧
      (emptyLoopAt 0).Resembles false (emptyLoopAt 1)) ∧
    (emptyLoopAt 0).tree true ≠ (emptyLoopAt 1).tree true ∧
      ¬ (emptyLoopAt 0).Resembles true (emptyLoopAt 1) := by
  have first : parse "while (true) { }" = .ok (emptyLoopAt 0) := rfl
  have second : parse " while (true) { }" = .ok (emptyLoopAt 1) := rfl
  have determined := printed_tree_determines.1 (printed_tree_determines.2 first)
    (printed_tree_determines.2 second)
  have alike : (emptyLoopAt 0).tree false = (emptyLoopAt 1).tree false := by decide
  have different : (emptyLoopAt 0).tree true ≠ (emptyLoopAt 1).tree true := by decide
  exact ⟨⟨first, second⟩, ⟨alike, determined.1.mp alike⟩, different,
    fun same => different (determined.2.mpr same)⟩

end Shading
