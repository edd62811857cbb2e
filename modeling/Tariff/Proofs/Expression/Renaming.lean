import Mathlib.Data.List.Basic
import Tariff.Proofs.Expression.Words

/-!
# Texts under other names

To rename words in a text is to write other words in their places (`renamed`). The renamed text
falls into the renamed pieces (`pieces_renamed`), so what is then substituted in it is found word by
word: if every word of the text stands for the same as the word in its place, the substitution comes
to the same text and is left with the same names (`substitute_renamed`).
-/

namespace Tariff.Expression

variable {names tokens others : Replacements} {cs : List Char}

/-- A piece under other names. -/
def Piece.renamed (names : Replacements) : Piece → Piece
  | .word w => .word ((names.lookup w).getD w)
  | .gap c => .gap c

/-- The characters of a piece. -/
def Piece.text : Piece → List Char
  | .word w => w
  | .gap c => [c]

/-- A text with some of its whole words under other names. -/
def renamed (names : Replacements) (cs : List Char) : List Char :=
  (pieces cs).flatMap fun p => (p.renamed names).text

/-- Every new name is a word. -/
def Replacements.ToWords (names : Replacements) : Prop :=
  ∀ e ∈ names, IsWord e.2

theorem isWord_lookup (hto : names.ToWords) {w : List Char} (hw : IsWord w) :
    IsWord ((names.lookup w).getD w) := by
  cases hlookup : names.lookup w with
  | none => exact hw
  | some t =>
    obtain ⟨before, after, rfl, -⟩ := List.lookup_eq_some_iff.mp hlookup
    exact hto (w, t) (by simp)

theorem startsInWord_renamed (h : startsInWord cs = false) :
    startsInWord (renamed names cs) = false := by
  cases cs with
  | nil => rfl
  | cons c cs =>
    have hc := isWordChar_of_startsInWord h
    rw [renamed, pieces_gap hc]
    exact hc

/-- **A renamed text falls into the renamed pieces**: no two words grow together. -/
theorem pieces_renamed (hto : names.ToWords) (cs : List Char) :
    pieces (renamed names cs) = (pieces cs).map (Piece.renamed names) := by
  induction cs using wordRuns with
  | hnil => rfl
  | hgap c cs hc ih =>
    have htext : renamed names (c :: cs) = c :: renamed names cs := by
      rw [renamed, pieces_gap hc]
      rfl
    rw [htext, pieces_gap hc, pieces_gap hc, ih]
    rfl
  | hword w cs hw hcs ih =>
    have htext : renamed names (w ++ cs) = (names.lookup w).getD w ++ renamed names cs := by
      rw [renamed, pieces_word hw hcs]
      rfl
    rw [htext, pieces_word (isWord_lookup hto hw) (startsInWord_renamed hcs), pieces_word hw hcs,
      ih]
    rfl

/-- If every word stands for the same as the word in its place, the token pass writes the same. -/
theorem replaceTokens_renamed (htokens : tokens.Words) (hothers : others.Words)
    (hto : names.ToWords)
    (h : ∀ w, Piece.word w ∈ pieces cs →
      (others.lookup ((names.lookup w).getD w)).getD ((names.lookup w).getD w)
        = (tokens.lookup w).getD w) :
    replaceTokens others (renamed names cs) = replaceTokens tokens cs := by
  rw [replaceTokens_eq_pieces hothers, replaceTokens_eq_pieces htokens, pieces_renamed hto,
    List.flatMap_map]
  refine List.flatMap_congr fun p hp => ?_
  cases p with
  | word w => exact h w hp
  | gap c => rfl

/-! ## Tokens under other names -/

/-- The tokens of one substitution with those of another one in their places. -/
def Replacements.pairedWith (tokens others : Replacements) : Replacements :=
  (tokens.map (·.1)).zip (others.map (·.1))

/-- What stands for a token stands for the token in its place. -/
theorem lookup_pairedWith (hvalues : tokens.map (·.2) = others.map (·.2))
    (hnodup : (others.map (·.1)).Nodup) {w t : List Char}
    (h : (tokens.pairedWith others).lookup w = some t) :
    others.lookup t = tokens.lookup w ∧ tokens.lookup w ≠ none := by
  induction tokens generalizing others with
  | nil => cases h
  | cons e tokens ih =>
    cases others with
    | nil => cases hvalues
    | cons e' others =>
      obtain ⟨hvalue, hrest⟩ := List.cons.inj hvalues
      obtain ⟨hfresh, hnames⟩ := List.nodup_cons.mp hnodup
      obtain ⟨name, factor⟩ := e
      obtain ⟨name', factor'⟩ := e'
      obtain rfl : factor = factor' := hvalue
      have hpaired : ((name, name') :: Replacements.pairedWith tokens others).lookup w = some t := h
      rw [List.lookup_cons] at hpaired
      rw [List.lookup_cons, List.lookup_cons]
      by_cases hw : w = name
      · rw [beq_iff_eq.mpr hw] at hpaired ⊢
        obtain rfl : name' = t := Option.some.inj hpaired
        rw [beq_self_eq_true]
        exact ⟨rfl, nofun⟩
      · rw [beq_false_of_ne hw] at hpaired ⊢
        have ht : t ≠ name' := by
          rintro rfl
          obtain ⟨before, after, heq, -⟩ := List.lookup_eq_some_iff.mp hpaired
          have hmem : (w, t) ∈ (tokens.map (·.1)).zip (others.map (·.1)) := by
            show (w, t) ∈ Replacements.pairedWith tokens others
            rw [heq]
            simp
          exact hfresh (List.of_mem_zip hmem).2
        rw [beq_false_of_ne ht]
        exact ih hrest hnames hpaired

theorem lookup_pairedWith_eq_none_iff (hlength : tokens.length = others.length) {w : List Char} :
    (tokens.pairedWith others).lookup w = none ↔ w ∉ tokens.map (·.1) := by
  have hnames : (tokens.pairedWith others).map (·.1) = tokens.map (·.1) :=
    List.map_fst_zip (by simp [hlength])
  rw [lookup_eq_none_iff, hnames]

/-- A text in which every token has been renamed, to a token that the same stands for, and in which
no other word has become a token, is filled in to the same. -/
theorem substitute_renamed (htokens : tokens.Words) (hothers : others.Words)
    (hvalues : tokens.map (·.2) = others.map (·.2)) (hnodup : (others.map (·.1)).Nodup)
    (hleft : ∀ w, Piece.word w ∈ pieces cs → w ∉ tokens.map (·.1) → w ∉ others.map (·.1)) :
    substitute (renamed (tokens.pairedWith others) cs) others = substitute cs tokens := by
  have hto : (tokens.pairedWith others).ToWords := by
    rintro ⟨w, t⟩ hmem
    obtain ⟨e, he, rfl⟩ := List.mem_map.mp (List.of_mem_zip hmem).2
    exact hothers e he
  have hlength : tokens.length = others.length := by
    simpa using congrArg List.length hvalues
  have hwords : ∀ w, Piece.word w ∈ pieces cs →
      (others.lookup (((tokens.pairedWith others).lookup w).getD w)).getD
          (((tokens.pairedWith others).lookup w).getD w)
        = (tokens.lookup w).getD w := by
    intro w hw
    cases hlookup : (tokens.pairedWith others).lookup w with
    | some t =>
      obtain ⟨hsame, hfound⟩ := lookup_pairedWith hvalues hnodup hlookup
      obtain ⟨factor, hfactor⟩ := Option.ne_none_iff_exists'.mp hfound
      show (others.lookup t).getD t = (tokens.lookup w).getD w
      rw [hsame, hfactor]
      rfl
    | none =>
      have hown := (lookup_pairedWith_eq_none_iff hlength).mp hlookup
      show (others.lookup w).getD w = (tokens.lookup w).getD w
      rw [lookup_eq_none_iff.mpr (hleft w hw hown), lookup_eq_none_iff.mpr hown]
  rw [substitute, substitute, replaceTokens_renamed htokens hothers hto hwords]

end Tariff.Expression
