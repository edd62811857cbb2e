import Tariff.Definition
import Tariff.Proofs.Choices
import Tariff.Proofs.CleanReport
import Tariff.Proofs.Expression.WholeWords
import Tariff.Proofs.LoneToken
import Tariff.Proofs.WholeNumbers

/-!
# Finite contributions

A number that is answered is finite, but the numbers of options are stored, and a stored one may be
infinite or undefined. Such a number is written as a name, which nothing stands for: it is reported
as unknown and counts as zero.

* `mem_pieces_replaceTokens` — a word that a substitution leaves is a word of the text, or of a
  factor;
* `Number.isFinite_iff_namesIn` — exactly the finite numbers are written without names;
* `Variable.contributions_finite` — what a variable contributes is finite for every answer if all
  numbers of its options are, and, as long as each option can be chosen, only then.
-/

namespace Tariff

open Numeral Expression Text

/-! ## Names that a substitution leaves -/

namespace Expression

theorem mem_of_mem_namesIn {ps : List Piece} {afterPoint : Bool} {w : List Char}
    (h : w ∈ namesIn afterPoint ps) : .word w ∈ ps ∧ isName w = true := by
  induction ps generalizing afterPoint with
  | nil => cases h
  | cons p ps ih =>
    have hrest : ∀ {behind}, w ∈ namesIn behind ps → .word w ∈ p :: ps ∧ isName w = true :=
      fun hw => ⟨List.mem_cons_of_mem _ (ih hw).1, (ih hw).2⟩
    cases p with
    | gap c => exact hrest h
    | word v =>
      rw [namesIn] at h
      split at h
      · next hname =>
        rcases List.mem_cons.mp h with rfl | hw
        · exact ⟨List.mem_cons_self, (Bool.and_eq_true_iff.mp hname).1⟩
        · exact hrest hw
      · exact hrest h

/-- **A word that is left is a word of the text for which no token stands, or of a factor.** -/
theorem mem_pieces_replaceTokens {tokens : Replacements} (htokens : tokens.Words)
    {cs w : List Char} (h : .word w ∈ pieces (replaceTokens tokens cs)) :
    (.word w ∈ pieces cs ∧ tokens.lookup w = none)
      ∨ ∃ t f, .word t ∈ pieces cs ∧ tokens.lookup t = some f ∧ .word w ∈ pieces f := by
  -- no word starts right behind a word, so the words of a factor end with it
  induction cs using wordRuns with
  | hnil =>
    rw [replaceTokens_nil tokens htokens] at h
    cases h
  | hgap c cs hc ih =>
    rw [replaceTokens_gap htokens hc, pieces_gap hc] at h
    rw [pieces_gap hc]
    rcases List.mem_cons.mp h with heq | h
    · cases heq
    · rcases ih h with ⟨hw, hnone⟩ | ⟨t, f, ht, hf, hw⟩
      · exact .inl ⟨List.mem_cons_of_mem _ hw, hnone⟩
      · exact .inr ⟨t, f, List.mem_cons_of_mem _ ht, hf, hw⟩
  | hword v cs hv hcs ih =>
    rw [replaceTokens_append htokens v hcs, replaceTokens_word htokens hv,
      pieces_append _ (startsInWord_replaceTokens htokens hcs)] at h
    rw [pieces_word hv hcs]
    rcases List.mem_append.mp h with hhere | hbehind
    · cases hlookup : tokens.lookup v with
      | none =>
        rw [hlookup, Option.getD_none, pieces_eq_singleton hv, List.mem_singleton] at hhere
        cases hhere
        exact .inl ⟨List.mem_cons_self, hlookup⟩
      | some f =>
        rw [hlookup, Option.getD_some] at hhere
        exact .inr ⟨v, f, List.mem_cons_self, hlookup, hhere⟩
    · rcases ih hbehind with ⟨hw, hnone⟩ | ⟨t, f, ht, hf, hw⟩
      · exact .inl ⟨List.mem_cons_of_mem _ hw, hnone⟩
      · exact .inr ⟨t, f, List.mem_cons_of_mem _ ht, hf, hw⟩

end Expression

/-! ## Numbers that are written without names -/

theorem Number.namesIn_factor {n : Number} (h : n.isFinite = true) :
    namesIn false (pieces n.factor) = [] :=
  namesIn_eq_nil (fun _ hw => (factor_cases h).noName hw) false

/-- A number that is not finite is written as one name, whose zero may have a minus. -/
theorem Number.factor_of_not_finite {n : Number} (h : n.isFinite = false) :
    (namesIn false (pieces n.factor) = ["NaN".toList]
        ∨ namesIn false (pieces n.factor) = ["Infinity".toList])
      ∧ ∃ neg, zeroed n.factor = signedFactor neg (digits 0) := by
  cases n with
  | whole n => cases h
  | real x =>
    cases x with
    | finite neg m e => cases h
    | infinite neg =>
      cases neg with
      | false => exact ⟨.inr (by decide), false, by decide⟩
      | true => exact ⟨.inr (by decide), true, by decide⟩
    | nan => exact ⟨.inl (by decide), false, by decide⟩

theorem Number.isFinite_iff_namesIn {n : Number} :
    n.isFinite = true ↔ namesIn false (pieces n.factor) = [] := by
  refine ⟨namesIn_factor, fun hnames => ?_⟩
  cases hfinite : n.isFinite with
  | true => rfl
  | false =>
    rcases (factor_of_not_finite hfinite).1 with h | h <;>
    · rw [h] at hnames
      cases hnames

/-- A contribution that is a finite number. -/
def Contribution.IsFinite : Contribution → Prop
  | .number n => n.isFinite = true
  | .text _ => False

theorem unknown_lone (e : String × Contribution) :
    (substitute e.1.toList (replacements [e])).unknown
      = (namesIn false (pieces e.2.factor)).eraseDups.map String.ofList := by
  rw [replacements, List.map_singleton, substitute_lone]

/-- Finite numbers bring no names into a text: what is left over stands in the text itself. -/
theorem word_of_unknown {tokens : OrderedMap Contribution}
    (hwords : ∀ e ∈ tokens, IsWord e.1.toList) (hfinite : ∀ e ∈ tokens, e.2.IsFinite)
    {cs : List Char} {id : String} (hid : id ∈ (substitute cs (replacements tokens)).unknown) :
    .word id.toList ∈ pieces cs ∧ id ∉ tokens.keys := by
  obtain ⟨w, hw, rfl⟩ := List.mem_map.mp hid
  obtain ⟨hword, hname⟩ := mem_of_mem_namesIn (List.mem_eraseDups.mp hw)
  rw [String.toList_ofList]
  rcases mem_pieces_replaceTokens (words_of_tokens hwords) hword with
    ⟨hown, hnone⟩ | ⟨t, f, -, hlookup, hfactor⟩
  · rw [lookup_word, Option.map_eq_none_iff, OrderedMap.find?_eq_none_iff] at hnone
    exact ⟨hown, hnone⟩
  · rw [lookup_word, Option.map_eq_some_iff] at hlookup
    obtain ⟨c, hfound, rfl⟩ := hlookup
    have hc := hfinite _ (OrderedMap.mem_of_find? hfound)
    cases c with
    | number n =>
      have hnone := (Number.factor_cases hc).noName hfactor
      rw [hname] at hnone
      cases hnone
    | text s => cases hc

/-! ## What options contribute -/

namespace Variable

variable {v : Variable}

/-- The numbers that an option may count as. -/
def numbersOf (v : Variable) (o : Choice) : List Number :=
  if v.isMultiSelect then [o.number, o.unselected] else [v.amountOf o]

/-- The numbers that the options of a variable may count as. -/
def optionNumbers (v : Variable) : List Number :=
  if v.kind.hasOptions then v.choices.flatMap v.numbersOf else []

/-- Whether each option may be chosen: some text names it, and no other option has its token. -/
def CanChooseAll (v : Variable) : Prop :=
  v.tokens.Nodup ∧ ∀ o ∈ v.choices, ∃ s, isBlankText s = false ∧ v.choiceNamed? s = some o

/-- In a variable without defects each option may be chosen whose value is not blank. -/
theorem canChooseAll_of_defects (hoptions : v.kind.hasOptions = true) (h : v.choiceDefects = [])
    (hvalues : ∀ o ∈ v.choices, isBlankText o.value.plain = false) : v.CanChooseAll := by
  obtain ⟨hids, hdistinct⟩ := nodup_choices hoptions h
  exact ⟨nodup_tokens h, fun o ho =>
    ⟨o.value.plain, hvalues o ho, choiceNamed?_value hids hdistinct ho⟩⟩

theorem mem_optionNumbers {n : Number} :
    n ∈ v.optionNumbers
      ↔ v.kind.hasOptions = true ∧ ∃ o ∈ v.choices, n ∈ v.numbersOf o := by
  unfold optionNumbers
  split
  · next hoptions => simp [hoptions]
  · next hnone => simp [hnone]

theorem number_of_definedContributions (hkind : v.kind ≠ .checkbox) {token : String}
    {c : Contribution} (h : c ∈ v.definedContributions token) :
    ∃ n ∈ v.optionNumbers, c = .number n := by
  have hone : ∀ (amount : Choice → Number), v.kind.hasOptions = true →
      (∀ o, v.numbersOf o = [amount o]) → c ∈ v.choices.map (fun o => .number (amount o)) →
      ∃ n ∈ v.optionNumbers, c = .number n := by
    intro amount hoptions hnumbers hc
    obtain ⟨o, ho, rfl⟩ := List.mem_map.mp hc
    exact ⟨_, mem_optionNumbers.mpr ⟨hoptions, o, ho, by rw [hnumbers o]; exact .head _⟩, rfl⟩
  unfold definedContributions at h
  cases hv : v.kind with
  | number | stepper | slider | text =>
    rw [hv] at h
    cases h
  | checkbox => exact absurd hv hkind
  | dropdown =>
    rw [hv] at h
    exact hone _ (by rw [hv]; rfl) (fun o => by simp [numbersOf, isMultiSelect, amountOf, hv]) h
  | select =>
    rw [hv] at h
    exact hone _ (by rw [hv]; rfl) (fun o => by simp [numbersOf, isMultiSelect, amountOf, hv]) h
  | multipleChoice =>
    rw [hv] at h
    dsimp only at h
    by_cases hseveral : v.allowsSeveral = true
    · rw [if_pos hseveral] at h
      obtain ⟨o, ho, hc⟩ := List.mem_flatMap.mp h
      have hnumbers : v.numbersOf o = [o.number, o.unselected] := by
        simp [numbersOf, isMultiSelect, hv, hseveral]
      have hoption : ∀ n ∈ v.numbersOf o, n ∈ v.optionNumbers := fun n hn =>
        mem_optionNumbers.mpr ⟨by rw [hv]; rfl, o, (List.mem_filter.mp ho).1, hn⟩
      rw [hnumbers] at hoption
      rcases List.mem_cons.mp hc with rfl | hc
      · exact ⟨_, hoption _ (.head _), rfl⟩
      · obtain rfl := List.mem_singleton.mp hc
        exact ⟨_, hoption _ (.tail _ (.head _)), rfl⟩
    · rw [if_neg hseveral] at h
      exact hone _ (by rw [hv]; rfl)
        (fun o => by simp [numbersOf, isMultiSelect, amountOf, hv, hseveral]) h

/-- **Every contribution is a number**: a finite one, or one that is stored with an option. -/
theorem number_of_mem_contributions (hkind : v.kind ≠ .checkbox) {answer : Value}
    {e : String × Contribution} (he : e ∈ (v.contributions answer).contributions) :
    ∃ n, e.2 = .number n ∧ (n.isFinite = true ∨ n ∈ v.optionNumbers) := by
  by_cases hmulti : v.isMultiSelect = true
  · -- two options may have the same token here, so the entries are looked at themselves
    rw [contributions_eq_selectionContributions hmulti, contributions_selectionContributions] at he
    obtain ⟨o, ho, rfl⟩ := List.mem_map.mp (OrderedMap.mem_of_mem_ofList he)
    refine ⟨_, rfl, .inr (mem_optionNumbers.mpr ⟨hasOptions_of_isMultiSelect hmulti, o, ho, ?_⟩)⟩
    rw [numbersOf, if_pos hmulti]
    split
    · exact .head _
    · exact .tail _ (.head _)
  · have htokens : v.tokens.Nodup := by
      rw [tokens_of_not_isMultiSelect hmulti]
      exact List.nodup_singleton _
    have hfound : (v.contributions answer).contributions.find? e.1 = some e.2 :=
      OrderedMap.find?_of_mem (by rw [keys_contributions htokens]; exact htokens) he
    rcases mayContribute_of_find? htokens hfound with hdefined | ⟨n, hn, hfinite⟩
    · obtain ⟨n, hn, hc⟩ := number_of_definedContributions hkind hdefined
      exact ⟨n, hc, .inr hn⟩
    · exact ⟨n, hn, .inl hfinite⟩

/-- Each number of an option is contributed for some answer, if each option may be chosen. -/
theorem exists_answer_of_mem_optionNumbers (hall : v.CanChooseAll) {n : Number}
    (hn : n ∈ v.optionNumbers) :
    ∃ answer, ∃ token, (token, .number n) ∈ (v.contributions answer).contributions := by
  obtain ⟨htokens, hnamed⟩ := hall
  obtain ⟨hoptions, o, ho, hn⟩ := mem_optionNumbers.mp hn
  obtain ⟨s, hs, hchoice⟩ := hnamed o ho
  by_cases hmulti : v.isMultiSelect = true
  · rw [numbersOf, if_pos hmulti] at hn
    have hentry : ∀ answer, (v.choiceToken o, Contribution.number
        (if o.isIn (Answer.selection answer) then o.number else o.unselected))
        ∈ (v.contributions answer).contributions := fun answer =>
      OrderedMap.mem_of_find? (find?_contributions_choice htokens hmulti ho answer)
    rcases List.mem_cons.mp hn with rfl | hn
    · have hchosen : o.isIn (Answer.selection (.text s)) = true := by
        rw [selection_of_isSingle (isSingle_text hs), isIn_iff]
        exact (eq_of_choiceNamed? hchoice).imp List.mem_singleton.mpr List.mem_singleton.mpr
      have hnumber := hentry (.text s)
      rw [if_pos hchosen] at hnumber
      exact ⟨_, _, hnumber⟩
    · obtain rfl := List.mem_singleton.mp hn
      -- nothing is chosen without an answer
      have hunchosen : ¬ o.isIn (Answer.selection .null) = true := by
        rw [isIn_iff]
        rintro (h | h) <;> cases h
      have hnumber := hentry .null
      rw [if_neg hunchosen] at hnumber
      exact ⟨_, _, hnumber⟩
  · rw [numbersOf, if_neg hmulti, List.mem_singleton] at hn
    have hchosen := contributions_of_choiceNamed? hoptions hmulti (isSingle_text hs) hchoice
    refine ⟨.text s, v.id, ?_⟩
    rw [hchosen, hn]
    exact .head _

theorem unknown_number (token : String) (n : Number) :
    (n.isFinite = true ↔ (substitute token.toList (replacements [(token, .number n)])).unknown = [])
      ∧ (n.isFinite = false →
        ((substitute token.toList (replacements [(token, .number n)])).unknown = ["NaN"]
          ∨ (substitute token.toList (replacements [(token, .number n)])).unknown = ["Infinity"])
        ∧ ∀ depth, 2 ≤ depth →
          evaluate token [(token, .number n)] ⟨none, none⟩ depth = .ok 0) := by
  have hunknown : (substitute token.toList (replacements [(token, .number n)])).unknown
      = (namesIn false (pieces n.factor)).eraseDups.map String.ofList :=
    unknown_lone (token, .number n)
  refine ⟨?_, fun hnot => ⟨?_, fun depth hdepth => ?_⟩⟩
  · rw [hunknown, Number.isFinite_iff_namesIn]
    cases namesIn false (pieces n.factor) with
    | nil => simp
    | cons name names => simp [List.eraseDups_cons]
  · rw [hunknown]
    exact (Number.factor_of_not_finite hnot).1.imp (fun h => by rw [h]; decide)
      (fun h => by rw [h]; decide)
  · -- the zero that is written for the name may have a minus
    obtain ⟨neg, hzero⟩ := (Number.factor_of_not_finite hnot).2
    have hwritten : (Contribution.number n).writtenOut = signedFactor neg (digits 0) := hzero
    rw [evaluate_lone, hwritten, evaluateText_signedFactor neg 0 hdepth]
    cases neg <;> rfl

/-- **What a variable contributes is finite for every answer if all numbers of its options are**,
and as long as each option may be chosen, only then. A finite contribution brings no name into any
text; any other one is reported under its own name and counts as zero. -/
theorem contributions_finite (hkind : v.kind ≠ .checkbox) :
    (∀ answer, ∀ e ∈ (v.contributions answer).contributions,
        ∃ n, e.2 = .number n ∧ (n.isFinite = true ∨ n ∈ v.optionNumbers))
      ∧ ((∀ n ∈ v.optionNumbers, n.isFinite = true) →
        ∀ answer, ∀ e ∈ (v.contributions answer).contributions, e.2.IsFinite)
      ∧ (v.CanChooseAll →
        (∀ answer, ∀ e ∈ (v.contributions answer).contributions, e.2.IsFinite) →
        ∀ n ∈ v.optionNumbers, n.isFinite = true)
      ∧ (∀ answer, ∀ e ∈ (v.contributions answer).contributions,
        (e.2.IsFinite ↔ (substitute e.1.toList (replacements [e])).unknown = [])
          ∧ (¬ e.2.IsFinite →
            ((substitute e.1.toList (replacements [e])).unknown = ["NaN"]
              ∨ (substitute e.1.toList (replacements [e])).unknown = ["Infinity"])
            ∧ ∀ depth, 2 ≤ depth → evaluate e.1 [e] ⟨none, none⟩ depth = .ok 0))
      ∧ ∀ answer, (∀ e ∈ (v.contributions answer).contributions, IsWord e.1.toList ∧ e.2.IsFinite) →
        ∀ cs, ∀ id ∈ (substitute cs (replacements (v.contributions answer).contributions)).unknown,
          .word id.toList ∈ pieces cs ∧ id ∉ (v.contributions answer).contributions.keys := by
  refine ⟨fun answer e he => number_of_mem_contributions hkind he, fun hall answer e he => ?_,
    fun hchoose hall n hn => ?_, fun answer e he => ?_, fun answer hgood cs id hid => ?_⟩
  · obtain ⟨n, hnumber, hfinite | hoption⟩ := number_of_mem_contributions hkind he
    · rw [hnumber]
      exact hfinite
    · rw [hnumber]
      exact hall n hoption
  · obtain ⟨answer, token, hentry⟩ := exists_answer_of_mem_optionNumbers hchoose hn
    exact hall answer _ hentry
  · obtain ⟨token, c⟩ := e
    obtain ⟨n, rfl, -⟩ := number_of_mem_contributions hkind he
    obtain ⟨hnone, hsome⟩ := unknown_number token n
    exact ⟨hnone, fun hnot => hsome (Bool.not_eq_true _ ▸ hnot)⟩
  · exact word_of_unknown (fun e he => (hgood e he).1) (fun e he => (hgood e he).2) hid

/-- Whatever is added to a fence, only finite numbers are contributed; a list whose option counts as
what is no number may contribute that. -/
theorem contributions_finite_extras :
    (∀ answer, ∀ e ∈ (Sample.extras.contributions answer).contributions, e.2.IsFinite)
      ∧ ¬ ∀ answer, ∀ e ∈ ((Sample.menu "x" (.real .nan)).contributions answer).contributions,
        e.2.IsFinite := by
  have hextras : Sample.extras.kind ≠ .checkbox := by decide
  have hmenu : (Sample.menu "x" (.real .nan)).kind ≠ .checkbox := by decide
  obtain ⟨-, hfinite, -⟩ := contributions_finite hextras
  obtain ⟨-, -, honly, -⟩ := contributions_finite hmenu
  refine ⟨hfinite (by decide), fun hall => ?_⟩
  have hchoose : (Sample.menu "x" (.real .nan)).CanChooseAll :=
    canChooseAll_of_defects rfl (by decide) (by decide)
  have hnan := honly hchoose hall (.real .nan) (.head _)
  cases hnan

/-- A list with one option, as it is stored. The number of the option is a text that spells none. -/
def storedUndefined : Value :=
  .record [("id", .text "x"), ("type", .text "dropdown"),
    ("options", .list [.record [("label", .text "a"), ("value", .text "a"),
      ("numericValue", .text "nan")]])]

/-- **A stored option may contribute what is no number**: it is read from its text, is reported as
an unknown name and counts as zero. -/
theorem contributions_undefined :
    ∃ v, Variable.ofValue storedUndefined = .ok v ∧ v.kind = .dropdown
      ∧ (v.contributions (.text "a")).contributions = [("x", .number (.real .nan))]
      ∧ (substitute v.id.toList (replacements (v.contributions (.text "a")).contributions)).unknown
        = ["NaN"]
      ∧ v.priceFor (.text "a") defaultDepth = .ok 0 := by
  refine ⟨_, rfl, ?_, ?_, ?_, ?_⟩
  · decide
  · decide
  · decide
  · decide

end Variable

end Tariff
