import Tariff.Proofs.Tokens
import Tariff.Visibility

/-!
# Options by value and by id

An answer names an option by its value or by its id. Both are texts, and the check of a variable
keeps values apart from values and ids from ids, but no value from the id of another option. A text
that is both names the option with that value (`choiceNamed?_eq_some_iff`). What follows from that:

* `isIn_iff_canonical` — conditions ask for the option that a text names, prices for every option
  that has the text for its value or its id, so that they part where an option is miscounted;
* `equals_iff` — a condition on a single choice asks for the texts of the option that is chosen;
* `selection_list_text` — of several choices a single answer selects what a list with only this
  answer does.
-/

namespace Tariff

open Text

/-- A search by a key that does not repeat finds the entry with that key. -/
theorem find?_key_iff {α : Type} {f : α → String} {xs : List α} (h : (xs.map f).Nodup) {x : α}
    (hx : x ∈ xs) {key : String} : xs.find? (fun y => f y == key) = some x ↔ f x = key := by
  constructor
  · intro hfind
    have hkey := List.find?_some hfind
    exact beq_iff_eq.mp hkey
  · rintro rfl
    cases hfind : xs.find? fun y => f y == f x with
    | none => exact absurd (beq_self_eq_true _) (List.find?_eq_none.mp hfind x hx)
    | some y =>
      have hkey := List.find?_some hfind
      rw [List.inj_on_of_nodup_map h (List.mem_of_find?_eq_some hfind) hx (beq_iff_eq.mp hkey)]

/-- A search from the end by a key finds the last entry with that key. -/
theorem split_of_find?_reverse {α : Type} {f : α → String} {xs : List α} {x : α} {key : String}
    (h : xs.reverse.find? (fun y => f y == key) = some x) :
    f x = key ∧ ∃ before after, xs = before ++ x :: after ∧ key ∉ after.map f := by
  obtain ⟨hkey, later, earlier, hsplit, hlater⟩ := List.find?_eq_some_iff_append.mp h
  refine ⟨beq_iff_eq.mp hkey, earlier.reverse, later.reverse, ?_, ?_⟩
  · rw [← List.reverse_reverse xs, hsplit]
    simp
  · intro hmem
    obtain ⟨y, hy, heq⟩ := List.mem_map.mp hmem
    have hne := hlater y (List.mem_reverse.mp hy)
    simp [heq] at hne

/-- If no key is repeated, every entry is the last one with its key. -/
theorem find?_reverse_of_nodup {α : Type} {f : α → String} {xs : List α} (h : (xs.map f).Nodup)
    {x : α} (hx : x ∈ xs) : xs.reverse.find? (fun y => f y == f x) = some x := by
  have hreverse : (xs.reverse.map f).Nodup := by
    rw [List.map_reverse]
    exact List.nodup_reverse.mpr h
  exact (find?_key_iff hreverse (List.mem_reverse.mpr hx)).mpr rfl

theorem Kind.of_hasOptions {k : Kind} (h : k.hasOptions = true) :
    k ≠ .checkbox ∧ k.isNumeric = false := by
  cases k with
  | dropdown | multipleChoice | select => exact ⟨nofun, rfl⟩
  | _ => cases h

/-- Whether an answer says one thing: it is neither nothing nor a list. -/
def Answer.isSingle : Value → Bool
  | .list _ => false
  | answer => !Answer.isEmpty answer

theorem Answer.isEmpty_of_isSingle {answer : Value} (h : isSingle answer = true) :
    isEmpty answer = false := by
  cases answer with
  | list items => cases h
  | _ => simpa [isSingle] using h

/-- Whether an expected value is one item: it is there, and it is no list. -/
def Answer.isItem : Value → Bool
  | .null | .list _ => false
  | _ => true

/-- The answers that name an option. -/
inductive Choice.NamedBy (c : Choice) : Value → Prop where
  /-- By its value. -/
  | value : c.NamedBy c.value
  /-- By its id. -/
  | id : c.NamedBy (.text c.id)

namespace Variable

variable {v : Variable} {others : List Variable} {unitLimit : Int} {o p : Choice} {s : String}

theorem choiceDefects_of_validate (h : v.validate others unitLimit = .ok []) :
    v.choiceDefects = [] := by
  have hown := List.map_eq_nil_iff.mp (validate_eq_ok_iff.mp h).2
  simp only [ownDefects, List.append_eq_nil_iff] at hown
  exact hown.2

/-! ## The option that a text names -/

theorem choiceNamed?_eq_none_iff :
    v.choiceNamed? s = none ↔ ∀ c ∈ v.choices, c.value.plain ≠ s ∧ c.id ≠ s := by
  simp only [choiceNamed?, Option.or_eq_none_iff, List.find?_eq_none, beq_iff_eq]
  exact ⟨fun h c hc => ⟨h.1 c hc, h.2 c hc⟩,
    fun h => ⟨fun c hc => (h c hc).1, fun c hc => (h c hc).2⟩⟩

theorem eq_of_choiceNamed? (h : v.choiceNamed? s = some o) :
    o.value.plain = s ∨ o.id = s := by
  simp only [choiceNamed?, Option.or_eq_some_iff] at h
  rcases h with hvalue | ⟨-, hid⟩
  · have := List.find?_some hvalue
    exact .inl (beq_iff_eq.mp this)
  · have := List.find?_some hid
    exact .inr (beq_iff_eq.mp this)

/-- The option that a text names, by its id; a text that names none stands for itself. -/
def canonicalText (v : Variable) (s : String) : String :=
  ((v.choiceNamed? s).map (·.id)).getD s

theorem canonicalSelection_eq (answer : Value) :
    v.canonicalSelection answer = (Answer.selection answer).map v.canonicalText := rfl

/-- Whether an option is in a selection although no text of the selection names it: its id is there,
its value is not, and the id is the value of another option. -/
def Miscounts (v : Variable) (selected : List String) (o : Choice) : Prop :=
  o.id ∈ selected ∧ o.value.plain ∉ selected ∧ ∃ p ∈ v.choices, p ≠ o ∧ p.value.plain = o.id

theorem isIn_iff {selected : List String} :
    o.isIn selected = true ↔ o.value.plain ∈ selected ∨ o.id ∈ selected := by
  simp [Choice.isIn]

section Distinct

variable (hids : (v.choices.map (·.id)).Nodup) (hvalues : (v.choices.map (·.value.plain)).Nodup)
include hids hvalues

/-- **Values go before ids.** -/
theorem choiceNamed?_eq_some_iff (ho : o ∈ v.choices) :
    v.choiceNamed? s = some o
      ↔ o.value.plain = s ∨ (o.id = s ∧ ∀ p ∈ v.choices, p.value.plain ≠ s) := by
  simp only [choiceNamed?, Option.or_eq_some_iff, List.find?_eq_none, beq_iff_eq]
  rw [find?_key_iff hvalues ho, find?_key_iff hids ho, and_comm]

omit hvalues in
theorem canonicalText_eq_id_iff (ho : o ∈ v.choices) :
    v.canonicalText s = o.id ↔ v.choiceNamed? s = some o := by
  unfold canonicalText
  cases hs : v.choiceNamed? s with
  | none =>
    -- the text stands for itself and would be the id of an option
    simp only [Option.map_none, Option.getD_none, reduceCtorEq, iff_false]
    intro heq
    exact (choiceNamed?_eq_none_iff.mp hs o ho).2 heq.symm
  | some c =>
    simp only [Option.map_some, Option.getD_some, Option.some.injEq]
    constructor
    · intro heq
      exact List.inj_on_of_nodup_map hids (mem_choices_of_choiceNamed? hs) ho heq
    · rintro rfl
      rfl

/-! ## Several choices -/

/-- **Conditions ask for the options that the texts of an answer name.** -/
theorem mem_canonicalSelection_iff (ho : o ∈ v.choices) {answer : Value} :
    o.id ∈ v.canonicalSelection answer
      ↔ o.value.plain ∈ Answer.selection answer
        ∨ (o.id ∈ Answer.selection answer ∧ ∀ p ∈ v.choices, p.value.plain ≠ o.id) := by
  simp only [canonicalSelection_eq, List.mem_map, canonicalText_eq_id_iff hids ho,
    choiceNamed?_eq_some_iff hids hvalues ho]
  constructor
  · rintro ⟨s, hs, rfl | ⟨rfl, hnone⟩⟩
    · exact Or.inl hs
    · exact Or.inr ⟨hs, hnone⟩
  · rintro (hs | ⟨hs, hnone⟩)
    · exact ⟨_, hs, Or.inl rfl⟩
    · exact ⟨_, hs, Or.inr ⟨rfl, hnone⟩⟩

/-- **Prices ask for the options that have a text of the answer.** They are those of the conditions,
and the miscounted ones. -/
theorem isIn_iff_canonical (ho : o ∈ v.choices) {answer : Value} :
    o.isIn (Answer.selection answer) = true
      ↔ o.id ∈ v.canonicalSelection answer ∨ v.Miscounts (Answer.selection answer) o := by
  rw [isIn_iff, mem_canonicalSelection_iff hids hvalues ho]
  constructor
  · intro hin
    by_cases hvalue : o.value.plain ∈ Answer.selection answer
    · exact Or.inl (Or.inl hvalue)
    · have hid := hin.resolve_left hvalue
      by_cases hfree : ∀ p ∈ v.choices, p.value.plain ≠ o.id
      · exact Or.inl (Or.inr ⟨hid, hfree⟩)
      · push Not at hfree
        obtain ⟨p, hp, heq⟩ := hfree
        refine Or.inr ⟨hid, hvalue, p, hp, ?_, heq⟩
        rintro rfl
        exact hvalue (by rwa [heq])
  · rintro ((hvalue | ⟨hid, -⟩) | ⟨hid, -⟩)
    · exact Or.inl hvalue
    · exact Or.inr hid
    · exact Or.inr hid

theorem not_miscounts_of_canonical (ho : o ∈ v.choices) {answer : Value}
    (h : o.id ∈ v.canonicalSelection answer) : ¬ v.Miscounts (Answer.selection answer) o := by
  rintro ⟨-, hvalue, p, hp, -, heq⟩
  rcases (mem_canonicalSelection_iff hids hvalues ho).mp h with hin | ⟨-, hfree⟩
  · exact hvalue hin
  · exact hfree p hp heq

end Distinct

/-- **What is chosen for the price is chosen for the conditions**, unless an id of one option is the
value of another one. In a variable with several choices that passes its check, every option
contributes by whether it is in the selection. It is there if its id is in the canonical selection
that conditions compare, or else if it is miscounted, so that prices and conditions agree on an
answer exactly if no option is miscounted. -/
theorem selects_alike (hmulti : v.isMultiSelect = true)
    (hsound : v.validate others unitLimit = .ok []) (answer : Value) :
    (∀ o ∈ v.choices, (v.contributions answer).contributions.find? (v.choiceToken o)
        = some (.number (if o.isIn (Answer.selection answer) then o.number else o.unselected)))
      ∧ (∀ o ∈ v.choices,
        (o.isIn (Answer.selection answer) = true
          ↔ o.id ∈ v.canonicalSelection answer ∨ v.Miscounts (Answer.selection answer) o)
        ∧ (o.id ∈ v.canonicalSelection answer → ¬ v.Miscounts (Answer.selection answer) o))
      ∧ ((∀ o ∈ v.choices, o.isIn (Answer.selection answer) = true
          ↔ o.id ∈ v.canonicalSelection answer)
        ↔ ∀ o ∈ v.choices, ¬ v.Miscounts (Answer.selection answer) o) := by
  have hchoices := choiceDefects_of_validate hsound
  obtain ⟨hids, hvalues⟩ := nodup_choices (hasOptions_of_isMultiSelect hmulti) hchoices
  have hsplit : ∀ o ∈ v.choices, o.isIn (Answer.selection answer) = true
      ↔ o.id ∈ v.canonicalSelection answer ∨ v.Miscounts (Answer.selection answer) o := fun o ho =>
    isIn_iff_canonical hids hvalues ho
  have honce : ∀ o ∈ v.choices, o.id ∈ v.canonicalSelection answer →
      ¬ v.Miscounts (Answer.selection answer) o := fun o ho =>
    not_miscounts_of_canonical hids hvalues ho
  refine ⟨fun o ho => ?_, fun o ho => ⟨hsplit o ho, honce o ho⟩, ?_, ?_⟩
  · exact find?_contributions_choice (nodup_tokens hchoices) hmulti ho answer
  · intro hagree o ho hmis
    have hin := (hsplit o ho).mpr (Or.inr hmis)
    exact honce o ho ((hagree o ho).mp hin) hmis
  · intro hnone o ho
    rw [hsplit o ho]
    exact or_iff_left (hnone o ho)

/-- In a numbered list the text "1" is an id alone and "3" a value alone, so nothing is miscounted.
-/
theorem selects_alike_numbered :
    let answer := Value.list [.text "1", .text "3"]
    ∀ o ∈ Sample.numberedSeveral.choices, o.isIn (Answer.selection answer) = true
      ↔ o.id ∈ Sample.numberedSeveral.canonicalSelection answer := by
  intro answer
  have hsound : Sample.numberedSeveral.validate [] Formula.defaultUnitLimit = .ok [] := rfl
  have hfree : ∀ o ∈ Sample.numberedSeveral.choices, o.id ∈ Answer.selection answer →
      ∀ p ∈ Sample.numberedSeveral.choices, p.value.plain ≠ o.id := by decide
  obtain ⟨-, -, hagree⟩ := selects_alike rfl hsound answer
  refine hagree.mpr fun o ho hmis => ?_
  obtain ⟨hid, -, p, hp, -, heq⟩ := hmis
  exact hfree o ho hid p hp heq

/-- The text "2" is the id of one option and the value of another one: both count for the price, and
conditions know of one. -/
theorem selects_both_numbered :
    Sample.numberedSeveral.validate [] Formula.defaultUnitLimit = .ok []
      ∧ (Sample.numberedSeveral.contributions (.list [.text "2"])).contributions
        = [("coats_1", .number (.whole 2)), ("coats_2", .number (.whole 3))]
      ∧ Sample.numberedSeveral.canonicalSelection (.list [.text "2"]) = ["1"]
      ∧ ¬ ∀ o ∈ Sample.numberedSeveral.choices,
        o.isIn (Answer.selection (.list [.text "2"])) = true
          ↔ o.id ∈ Sample.numberedSeveral.canonicalSelection (.list [.text "2"]) :=
  ⟨rfl, by decide, by decide, by decide⟩

/-! ## A single choice -/

/-- The number that an option counts as where one option is chosen. -/
def amountOf (v : Variable) (c : Choice) : Number :=
  if v.kind = .select then c.amount else c.number

theorem choiceFor?_of_not_isEmpty {answer : Value} (h : Answer.isEmpty answer = false) :
    v.choiceFor? answer = v.choiceNamed? answer.plain := by
  cases answer with
  | null => cases h
  | _ => rfl

section Single

variable (hoptions : v.kind.hasOptions = true) (hsingle : ¬ v.isMultiSelect = true)
  {answer : Value} (hanswer : Answer.isSingle answer = true)
  (ho : v.choiceNamed? answer.plain = some o)
include hoptions hsingle hanswer ho

/-- **A single choice counts as the option that the answer names.** -/
theorem contributions_of_choiceNamed? :
    v.contributions answer = v.contributing (.number (v.amountOf o)) [] := by
  have hempty := Answer.isEmpty_of_isSingle hanswer
  -- in every kind with options the answer is looked up in the same way
  have hlookup : ∀ amount, v.choiceContribution amount answer []
      = v.contributing (.number (amount o)) [] := by
    intro amount
    unfold choiceContribution
    rw [if_neg (by simp [hempty]), choiceFor?_of_not_isEmpty hempty, ho]
  unfold contributions amountOf
  cases hkind : v.kind with
  | dropdown => exact hlookup _
  | select => exact hlookup _
  | multipleChoice =>
    have hone : ¬ v.allowsSeveral = true := fun hseveral =>
      hsingle (isMultiSelect_iff.mpr ⟨hkind, hseveral⟩)
    show (if v.allowsSeveral then _ else _) = _
    rw [if_neg hone]
    cases answer with
    | list items => cases hanswer
    | _ => exact hlookup _
  | _ =>
    rw [hkind] at hoptions
    cases hoptions

/-- **A condition on a single choice asks for a text of the option that is chosen.** -/
theorem equals_iff (expected : Value) :
    Comparison.equals.holds v answer expected = true
      ↔ expected.plain = o.value.plain ∨ expected.plain = o.id := by
  obtain ⟨hbox, hnumeric⟩ := Kind.of_hasOptions hoptions
  have hequals : v.answerEquals answer expected
      = (expected.plain == o.value.plain || expected.plain == o.id) := by
    unfold answerEquals
    rw [if_neg (by simpa using hbox), if_neg (by simp [hnumeric]), if_neg hsingle]
    have hfor : v.choiceFor? answer = some o := by
      rw [choiceFor?_of_not_isEmpty (Answer.isEmpty_of_isSingle hanswer), ho]
    cases answer with
    | list items => cases hanswer
    | _ => simp only [Answer.first, hoptions, if_true, hfor]
  have hholds : Comparison.equals.holds v answer expected = v.answerEquals answer expected := by
    cases answer with
    | null => cases hanswer
    | _ => rfl
  rw [hholds, hequals, Bool.or_eq_true, beq_iff_eq, beq_iff_eq]

end Single

/-- Whether no id of an option is the value of another one. -/
def KeepsNamesApart (v : Variable) : Prop :=
  ∀ o ∈ v.choices, ∀ p ∈ v.choices, o.id = p.value.plain → o = p

/-- Whether every option of a variable is known by its value and by its id: either one, as an
answer, gives the number of the option, and a condition that expects either one holds for this
option alone. -/
def KnowsOptions (v : Variable) : Prop :=
  ∀ o ∈ v.choices, ∀ p ∈ v.choices, ∀ answer expected, o.NamedBy answer → p.NamedBy expected →
    v.contributions answer = v.contributing (.number (v.amountOf o)) []
      ∧ (Comparison.equals.holds v answer expected = true ↔ o = p)

section Apart

variable (hids : (v.choices.map (·.id)).Nodup) (hvalues : (v.choices.map (·.value.plain)).Nodup)
include hids hvalues

theorem choiceNamed?_value (ho : o ∈ v.choices) : v.choiceNamed? o.value.plain = some o :=
  (choiceNamed?_eq_some_iff hids hvalues ho).mpr (Or.inl rfl)

/-- An id that is the value of an option names this option. -/
theorem choiceNamed?_id_of_eq_value (ho : o ∈ v.choices) (heq : p.id = o.value.plain) :
    v.choiceNamed? (Value.text p.id).plain = some o := by
  show v.choiceNamed? p.id = some o
  rw [heq, choiceNamed?_value hids hvalues ho]

theorem choiceNamed?_of_namedBy (hapart : v.KeepsNamesApart) (ho : o ∈ v.choices) {answer : Value}
    (h : o.NamedBy answer) : v.choiceNamed? answer.plain = some o := by
  cases h with
  | value => exact choiceNamed?_value hids hvalues ho
  | id =>
    refine (choiceNamed?_eq_some_iff hids hvalues ho).mpr ?_
    show o.value.plain = o.id ∨ _
    by_cases hfree : ∀ p ∈ v.choices, p.value.plain ≠ o.id
    · exact Or.inr ⟨rfl, hfree⟩
    · -- the only option that may have this value is `o` itself
      push Not at hfree
      obtain ⟨p, hp, heq⟩ := hfree
      obtain rfl := hapart o ho p hp heq.symm
      exact Or.inl heq

/-- A text of one option names another one only if they are the same. -/
theorem plain_eq_iff_of_namedBy (hapart : v.KeepsNamesApart) (ho : o ∈ v.choices)
    (hp : p ∈ v.choices) {expected : Value} (h : p.NamedBy expected) :
    expected.plain = o.value.plain ∨ expected.plain = o.id ↔ o = p := by
  constructor
  · intro htext
    have hnamed := choiceNamed?_of_namedBy hids hvalues hapart hp h
    have hown : v.choiceNamed? expected.plain = some o := by
      rcases htext with heq | heq
      · rw [heq]
        exact choiceNamed?_of_namedBy hids hvalues hapart ho .value
      · rw [heq]
        exact choiceNamed?_of_namedBy hids hvalues hapart ho .id
    exact Option.some.inj (hown.symm.trans hnamed)
  · rintro rfl
    cases h with
    | value => exact Or.inl rfl
    | id => exact Or.inr rfl

end Apart

section Known

variable (hoptions : v.kind.hasOptions = true) (hone : ¬ v.isMultiSelect = true)
  (hids : (v.choices.map (·.id)).Nodup) (hvalues : (v.choices.map (·.value.plain)).Nodup)
  (hnames : ∀ c ∈ v.choices, isBlankText c.id = false ∧ Answer.isSingle c.value = true)

include hnames in
theorem isSingle_of_namedBy (ho : o ∈ v.choices) {answer : Value} (h : o.NamedBy answer) :
    Answer.isSingle answer = true := by
  cases h with
  | value => exact (hnames o ho).2
  | id => simp [Answer.isSingle, Answer.isEmpty, (hnames o ho).1]

include hoptions hone hids hvalues hnames

theorem knowsOptions_of_keepsNamesApart (hapart : v.KeepsNamesApart) : v.KnowsOptions := by
  intro o ho p hp answer expected hnamed hexpected
  have hsay := isSingle_of_namedBy hnames ho hnamed
  have hchosen := choiceNamed?_of_namedBy hids hvalues hapart ho hnamed
  constructor
  · exact contributions_of_choiceNamed? hoptions hone hsay hchosen
  · rw [equals_iff hoptions hone hsay hchosen]
    exact plain_eq_iff_of_namedBy hids hvalues hapart ho hp hexpected

/-- An id that is the value of an option chooses this option, for which a condition on it holds. -/
theorem keepsNamesApart_of_knowsOptions (hknown : v.KnowsOptions) : v.KeepsNamesApart := by
  intro o ho p hp heq
  have hchosen := choiceNamed?_id_of_eq_value hids hvalues hp heq
  have hsay := isSingle_of_namedBy hnames ho .id
  have hequals : Comparison.equals.holds v (.text o.id) p.value = true :=
    (equals_iff hoptions hone hsay hchosen p.value).mpr (Or.inl rfl)
  exact (hknown o ho p hp _ _ .id .value).2.mp hequals

theorem contributions_value (ho : o ∈ v.choices) :
    v.contributions o.value = v.contributing (.number (v.amountOf o)) [] :=
  contributions_of_choiceNamed? hoptions hone (hnames o ho).2 (choiceNamed?_value hids hvalues ho)

theorem contributions_id_of_eq_value (ho : o ∈ v.choices) (hp : p ∈ v.choices)
    (heq : p.id = o.value.plain) :
    v.contributions (.text p.id) = v.contributing (.number (v.amountOf o)) [] :=
  contributions_of_choiceNamed? hoptions hone (isSingle_of_namedBy hnames hp .id)
    (choiceNamed?_id_of_eq_value hids hvalues ho heq)

end Known

/-- **The options of a single choice are known by value and by id** exactly if no id is the value of
another option. By its value an option is known in any case, and an id that is the value of an
option names the option with that value. -/
theorem options_known_iff (hoptions : v.kind.hasOptions = true) (hsingle : v.isMultiSelect = false)
    (hsound : v.validate others unitLimit = .ok [])
    (hnames : ∀ c ∈ v.choices, isBlankText c.id = false ∧ Answer.isSingle c.value = true) :
    (v.KnowsOptions ↔ v.KeepsNamesApart)
      ∧ ∀ o ∈ v.choices, v.contributions o.value = v.contributing (.number (v.amountOf o)) []
        ∧ ∀ p ∈ v.choices, p.id = o.value.plain →
          v.contributions (.text p.id) = v.contributing (.number (v.amountOf o)) [] := by
  obtain ⟨hids, hvalues⟩ := nodup_choices hoptions (choiceDefects_of_validate hsound)
  have hone : ¬ v.isMultiSelect = true := by simp [hsingle]
  constructor
  · constructor
    · exact keepsNamesApart_of_knowsOptions hoptions hone hids hvalues hnames
    · exact knowsOptions_of_keepsNamesApart hoptions hone hids hvalues hnames
  · intro o ho
    constructor
    · exact contributions_value hoptions hone hids hvalues hnames ho
    · intro p hp heq
      exact contributions_id_of_eq_value hoptions hone hids hvalues hnames ho hp heq

/-- Where ids are words and values are numbers, every option is known by both. -/
theorem options_known_iff_spelled :
    Sample.spelled.contributions (.text "three")
      = Sample.spelled.contributing (.number (.whole 3)) []
      ∧ Comparison.equals.holds Sample.spelled (.text "three") (.int 3) = true
      ∧ ¬ Comparison.equals.holds Sample.spelled (.text "three") (.text "two") = true := by
  have hsound : Sample.spelled.validate [] Formula.defaultUnitLimit = .ok [] := rfl
  have hnames : ∀ c ∈ Sample.spelled.choices,
      isBlankText c.id = false ∧ Answer.isSingle c.value = true := by decide
  have hapart : ∀ o ∈ Sample.spelled.choices, ∀ p ∈ Sample.spelled.choices,
      o.id ≠ p.value.plain := by decide
  obtain ⟨hiff, -⟩ := options_known_iff rfl rfl hsound hnames
  have hknown := hiff.mpr fun o ho p hp heq => absurd heq (hapart o ho p hp)
  have htwo : Sample.coatsOf "two" 2 ∈ Sample.spelled.choices := .head _
  have hthree : Sample.coatsOf "three" 3 ∈ Sample.spelled.choices := .tail _ (.head _)
  obtain ⟨hcounts, hown⟩ := hknown _ hthree _ hthree _ _ .id .value
  obtain ⟨-, hother⟩ := hknown _ hthree _ htwo _ _ .id .id
  refine ⟨hcounts, hown.mpr rfl, fun hholds => ?_⟩
  exact absurd (congrArg Choice.id (hother.mp hholds)) (by decide)

/-- The id of the second numbered option chooses the first one, whose value it is, and a condition
for the first one holds. -/
theorem options_mistaken_numbered :
    Sample.numbered.validate [] Formula.defaultUnitLimit = .ok []
      ∧ (∀ c ∈ Sample.numbered.choices,
        isBlankText c.id = false ∧ Answer.isSingle c.value = true)
      ∧ Sample.numbered.choices = [Sample.coatsOf "1" 2, Sample.coatsOf "2" 3]
      ∧ Sample.numbered.contributions (.text "2")
        = Sample.numbered.contributing (.number (.whole 2)) []
      ∧ Comparison.equals.holds Sample.numbered (.text "2") (.int 2) = true
      ∧ ¬ Sample.numbered.KnowsOptions := by
  refine ⟨rfl, by decide, rfl, rfl, by decide, fun hknown => ?_⟩
  have hone : Sample.coatsOf "1" 2 ∈ Sample.numbered.choices := .head _
  have htwo : Sample.coatsOf "2" 3 ∈ Sample.numbered.choices := .tail _ (.head _)
  have heq := (hknown _ htwo _ hone _ _ .id .value).2.mp (by decide)
  exact absurd (congrArg Choice.id heq) (by decide)

/-! ## A single answer to a question with several choices -/

theorem selection_of_isSingle {answer : Value} (h : Answer.isSingle answer = true) :
    Answer.selection answer = [answer.plain] := by
  unfold Answer.selection
  cases answer with
  | list items => cases h
  | _ => rw [if_neg (by simpa [Answer.isSingle] using h)]

theorem canonicalSelection_of_isSingle {answer : Value} (h : Answer.isSingle answer = true) :
    v.canonicalSelection answer = [v.canonicalText answer.plain] := by
  rw [canonicalSelection_eq, selection_of_isSingle h]
  rfl

section SeveralChoices

variable (hmulti : v.isMultiSelect = true)
include hmulti

/-- Of several choices only what is selected counts. -/
theorem contributions_of_selection_eq {answer answer' : Value}
    (h : Answer.selection answer = Answer.selection answer') :
    v.contributions answer = v.contributions answer' := by
  simp only [contributions_eq_selectionContributions hmulti, selectionContributions, h]

theorem answerEquals_of_isMultiSelect (answer expected : Value) :
    v.answerEquals answer expected
      = sameSelection (v.canonicalSelection answer) (v.canonicalSelection expected) := by
  have hkind := (isMultiSelect_iff.mp hmulti).1
  unfold answerEquals
  rw [if_neg (by simp [hkind]), if_neg (by simp [hkind, Kind.isNumeric]), if_pos hmulti]

theorem comparableNumber?_of_isMultiSelect (answer : Value) :
    v.comparableNumber? answer = none := by
  have hkind := (isMultiSelect_iff.mp hmulti).1
  unfold comparableNumber?
  rw [if_neg (by simp [hkind, Kind.isNumeric]), if_pos hmulti]

end SeveralChoices

section ListOfOne

variable (hs : isBlankText s = false)
include hs

theorem isSingle_text : Answer.isSingle (.text s) = true := by
  simp [Answer.isSingle, Answer.isEmpty, hs]

theorem selection_list_text : Answer.selection (.list [.text s]) = Answer.selection (.text s) := by
  have hfilter : [Value.text s].filter (fun i => !Answer.isEmpty i) = [.text s] := by
    simp [Answer.isEmpty, hs]
  rw [selection_of_isSingle (isSingle_text hs)]
  unfold Answer.selection
  rw [if_neg (by simp [Answer.isEmpty])]
  show ((List.filter (fun i => !Answer.isEmpty i) [Value.text s]).map Value.plain).eraseDups = [s]
  rw [hfilter]
  rfl

theorem canonicalSelection_list_text :
    v.canonicalSelection (.list [.text s]) = v.canonicalSelection (.text s) := by
  rw [canonicalSelection_eq, canonicalSelection_eq, selection_list_text hs]

/-- A list of one contains an item that names the same option. -/
theorem contains_list_text_iff {expected : Value} (hitem : Answer.isItem expected = true) :
    Comparison.contains.holds v (.list [.text s]) expected = true
      ↔ Answer.isEmpty expected = false ∧ v.canonicalText expected.plain = v.canonicalText s := by
  have hcommon : Comparison.contains.holds v (.list [.text s]) expected
      = (v.canonicalSelection expected).contains (v.canonicalText s) := by
    have hown : v.canonicalSelection (.list [.text s]) = [v.canonicalText s] := by
      rw [canonicalSelection_list_text hs, canonicalSelection_of_isSingle (isSingle_text hs)]
      rfl
    show v.answerContains (.list [.text s]) expected = _
    cases expected with
    | null | list _ => cases hitem
    | _ => simp [answerContains, hown]
  rw [hcommon]
  cases hblank : Answer.isEmpty expected with
  | true =>
    have hnothing : v.canonicalSelection expected = [] := by
      simp [canonicalSelection_eq, Answer.selection, hblank]
    simp [hnothing]
  | false =>
    have hsay : Answer.isSingle expected = true := by
      cases expected with
      | null | list _ => cases hitem
      | _ => simpa [Answer.isSingle] using hblank
    simp [canonicalSelection_of_isSingle hsay, eq_comm]

/-- Where no item is looked for in the answer, a list of one passes the tests that its item does. -/
theorem holds_list_text (hmulti : v.isMultiSelect = true) (c : Comparison) {expected : Value}
    (hc : c = .contains → Answer.isItem expected = false) :
    c.holds v (.list [.text s]) expected = c.holds v (.text s) expected := by
  have hcanonical := canonicalSelection_list_text hs (v := v)
  have hempty : Answer.isEmpty (.list [.text s]) = Answer.isEmpty (.text s) := hs.symm
  have hequals : v.answerEquals (.list [.text s]) expected = v.answerEquals (.text s) expected := by
    rw [answerEquals_of_isMultiSelect hmulti, answerEquals_of_isMultiSelect hmulti, hcanonical]
  cases c with
  | isEmpty => exact hempty
  | isNotEmpty => exact congrArg (!·) hempty
  | equals => exact hequals
  | notEquals => exact congrArg (!·) hequals
  | contains =>
    show v.answerContains (.list [.text s]) expected = v.answerContains (.text s) expected
    cases expected with
    | null => rfl
    | list items => simp only [answerContains, hcanonical]
    | _ => cases hc rfl
  | greaterThan | lessThan | greaterOrEqual | lessOrEqual =>
    -- what is selected is no number
    simp only [Comparison.holds, comparableNumber?_of_isMultiSelect hmulti]

end ListOfOne

/-- **A single answer to a question with several choices is taken for a list of one**, by the prices
and by every condition but one. Whether an item is contained in a single answer is asked as of any
text: it holds if the item is written somewhere in the answer, in small or capital letters. Of a
list of one it holds if the item and the answer name the same option. -/
theorem single_answer_as_list (hmulti : v.isMultiSelect = true) (hs : isBlankText s = false) :
    v.contributions (.text s) = v.contributions (.list [.text s])
      ∧ (∀ (c : Comparison) (expected : Value),
        (c = .contains → Answer.isItem expected = false) →
        c.holds v (.text s) expected = c.holds v (.list [.text s]) expected)
      ∧ ∀ expected, Answer.isItem expected = true →
        (Comparison.contains.holds v (.text s) expected = true
          ↔ occursIn (toLower expected.plain).toList (toLower s).toList = true)
        ∧ (Comparison.contains.holds v (.list [.text s]) expected = true
          ↔ Answer.isEmpty expected = false
            ∧ v.canonicalText expected.plain = v.canonicalText s) := by
  refine ⟨contributions_of_selection_eq hmulti (selection_list_text hs).symm,
    fun c expected hc => (holds_list_text hs hmulti c hc).symm,
    fun expected hitem => ⟨?_, contains_list_text_iff hs hitem⟩⟩
  cases expected with
  | null | list _ => cases hitem
  | _ => rfl

/-- A gate is chosen alike on its own and in a list, whatever is compared but for parts of its name.
-/
theorem single_answer_as_list_gate :
    Sample.extras.contributions (.text "gate") = Sample.extras.contributions (.list [.text "gate"])
      ∧ (∀ expected, Comparison.equals.holds Sample.extras (.text "gate") expected
        = Comparison.equals.holds Sample.extras (.list [.text "gate"]) expected)
      ∧ Comparison.contains.holds Sample.extras (.text "gate") (.text "GA") = true
      ∧ ¬ Comparison.contains.holds Sample.extras (.list [.text "gate"]) (.text "GA") = true := by
  obtain ⟨hcounts, htests, hcontains⟩ :=
    single_answer_as_list (v := Sample.extras) (s := "gate") rfl (by decide)
  obtain ⟨hscalar, hlist⟩ := hcontains (.text "GA") rfl
  refine ⟨hcounts, fun expected => htests .equals expected nofun, hscalar.mpr (by decide), ?_⟩
  rw [hlist]
  decide

/-- Part of a name is contained in a single answer, and not in the list of this answer. -/
theorem single_answer_searched :
    Sample.extras.isMultiSelect = true ∧ isBlankText "gate" = false
      ∧ Comparison.contains.holds Sample.extras (.text "gate") (.text "g") = true
      ∧ Comparison.contains.holds Sample.extras (.list [.text "gate"]) (.text "g") = false := by
  decide

end Variable

end Tariff
