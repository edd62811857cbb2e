import Mathlib.Data.List.Pairwise
import Tariff.Proofs.Expression.Composition
import Tariff.Proofs.Tokens

/-!
# Tokens as operands

Two tokens with an operator between them are read as the two tokens, as long as no longer token is
written there: one that starts with the first token, goes on over the operator and ends with a word
of the second one (`Straddles`).

* `longestAt?_operand_iff` — the first token is the longest one at its place exactly if no token
  straddles;
* `segments_operands_iff` — the text is then cut into token, operator, token, and not otherwise;
* `exists_choices_of_straddles` — in a valid formula only an option straddles, and only from another
  option of the same variable.
-/

namespace Tariff.Expression

variable {names : List (List Char)} {s t u : List Char} {sign : Char}

/-- A token that starts with another one, goes on over an operator sign and ends with a word of what
is behind the sign. -/
def Straddles (s t : List Char) (sign : Char) (u : List Char) : Prop :=
  ∃ w rest, w ≠ [] ∧ u = w ++ rest ∧ startsInWord rest = false ∧ s = t ++ sign :: w

/-- What straddles is a token that stands where the operands are written and is longer than the
first one with its operator. -/
theorem straddles_iff :
    Straddles s t sign u ↔ standsAt s (t ++ sign :: u) = true ∧ t.length + 1 < s.length := by
  rw [standsAt_iff]
  constructor
  · rintro ⟨w, rest, hne, rfl, hend, rfl⟩
    refine ⟨⟨rest, by simp, hend⟩, ?_⟩
    have hpos := List.length_pos_iff.mpr hne
    simp only [List.length_append, List.length_cons]
    omega
  · rintro ⟨⟨rest, htext, hend⟩, hlonger⟩
    rcases List.append_eq_append_iff.mp htext with ⟨more, rfl, hmore⟩ | ⟨more, rfl, -⟩
    · simp only [List.length_append] at hlonger
      cases more with
      | nil =>
        rw [List.length_nil] at hlonger
        omega
      | cons c w =>
        obtain ⟨rfl, rfl⟩ := List.cons.inj hmore
        refine ⟨w, rest, ?_, rfl, hend, rfl⟩
        rintro rfl
        simp at hlonger
    · simp only [List.length_append] at hlonger
      omega

instance (s t : List Char) (sign : Char) (u : List Char) : Decidable (Straddles s t sign u) :=
  decidable_of_iff _ straddles_iff.symm

/-- **An operand is the longest token at its place** exactly if no token straddles. -/
theorem longestAt?_operand_iff (ht : t ∈ names) (hsign : isWordChar sign = false)
    (hu : startsInWord u = true) :
    longestAt? names (t ++ sign :: u) = some t ↔ ∀ s ∈ names, ¬ Straddles s t sign u := by
  constructor
  · intro hlongest s hs hstraddles
    obtain ⟨hstands, hlonger⟩ := straddles_iff.mp hstraddles
    have hmost := isLongest_longestAt? names (t ++ sign :: u)
    rw [hlongest] at hmost
    have hlength := hmost.2.2 s hs hstands
    omega
  · intro hnone
    have hlongest : IsLongest names (t ++ sign :: u) (some t) := by
      refine ⟨ht, standsAt_iff.mpr ⟨sign :: u, rfl, hsign⟩, fun s hs hstands => ?_⟩
      have hshort : ¬ t.length + 1 < s.length := fun hlonger =>
        hnone s hs (straddles_iff.mpr ⟨hstands, hlonger⟩)
      -- a token that ends with the sign would stop in front of a word
      have hsigned : s.length ≠ t.length + 1 := by
        intro hlength
        obtain ⟨rest, htext, hend⟩ := standsAt_iff.mp hstands
        have hlead : t ++ [sign] ++ u = s ++ rest := by
          rw [← htext, List.append_assoc]
          rfl
        obtain ⟨-, rfl⟩ := List.append_inj hlead (by simp [hlength])
        rw [hu] at hend
        cases hend
      omega
    exact (isLongest_longestAt? names _).unique hlongest

/-- A token on its own is the longest one at its place. -/
theorem longestAt?_self (hu : u ∈ names) : longestAt? names u = some u := by
  have hlongest : IsLongest names u (some u) := by
    refine ⟨hu, standsAt_iff.mpr ⟨[], by simp, rfl⟩, fun t _ hstands => ?_⟩
    exact (prefix_of_standsAt hstands).length_le
  exact (isLongest_longestAt? names u).unique hlongest

section Operands

variable (hnames : ∀ t ∈ names, startsInWord t = true)
include hnames

theorem ne_nil_of_mem_names (ht : t ∈ names) : t ≠ [] := by
  rintro rfl
  exact absurd (hnames [] ht) (by decide)

theorem segments_self (hu : u ∈ names) : segments names u = [.token u] := by
  have hlongest : longestAt? names (u ++ []) = some u := by
    rw [List.append_nil, longestAt?_self hu]
  have hcut := segmentsFrom_token (ne_nil_of_mem_names hnames hu) hlongest
  rw [List.append_nil] at hcut
  have hend : segmentsFrom names (endsInWord u) 0 [] = [] := by
    have hnone : longestAt? names [] = none := by
      refine longestAt?_eq_none fun t ht => ?_
      by_contra hstands
      obtain ⟨rest, heq, -⟩ := standsAt_iff.mp (by simpa using hstands)
      exact ne_nil_of_mem_names hnames ht (List.append_eq_nil_iff.mp heq.symm).1
    rw [segmentsFrom, hnone]
    simp
  rw [segments, hcut, hend]

/-- **Two operands are cut apart** exactly if no token straddles. -/
theorem segments_operands_iff (ht : t ∈ names) (hu : u ∈ names) (hsign : isWordChar sign = false) :
    segments names (t ++ sign :: u) = [.token t, .plain sign, .token u]
      ↔ ∀ s ∈ names, ¬ Straddles s t sign u := by
  rw [← longestAt?_operand_iff ht hsign (hnames u hu)]
  constructor
  · intro hcut
    cases hfound : longestAt? names (t ++ sign :: u) with
    | none =>
      -- at least the first operand stands there
      have hlongest := isLongest_longestAt? names (t ++ sign :: u)
      rw [hfound] at hlongest
      have hstands : standsAt t (t ++ sign :: u) = true := standsAt_iff.mpr ⟨_, rfl, hsign⟩
      rw [hlongest t ht] at hstands
      cases hstands
    | some w =>
      -- the first segment is what was found
      obtain ⟨hw, hstands⟩ := longestAt?_mem hfound
      obtain ⟨rest, htext⟩ := prefix_of_standsAt hstands
      rw [← htext] at hfound hcut
      rw [segments, segmentsFrom_token (ne_nil_of_mem_names hnames hw) hfound] at hcut
      obtain ⟨heq, -⟩ := List.cons.inj hcut
      cases heq
      rfl
  · intro hlongest
    rw [segments, segmentsFrom_token (ne_nil_of_mem_names hnames ht) hlongest,
      segmentsFrom_gap hnames _ hsign]
    show .token t :: .plain sign :: segments names u = _
    rw [segments_self hnames hu]

end Operands

end Tariff.Expression

namespace Tariff

open Expression

theorem Formula.startsInWord_of_mem_tokens {f : Formula}
    (hids : ∀ v ∈ f.questions, IsIdentifier v.id) {t : String} (ht : t ∈ f.tokens) :
    startsInWord t.toList = true := by
  obtain ⟨v, hv, htoken⟩ := List.mem_flatMap.mp ht
  obtain ⟨rest, heq⟩ := Variable.id_isPrefix_of_mem_tokens htoken
  have hword := (hids v hv).1.startsInWord
  rw [← heq]
  cases hid : v.id.toList with
  | nil => rw [hid] at hword; cases hword
  | cons c cs => rw [hid] at hword; exact hword

section Valid

variable {f : Formula} {unitLimit : Int} {report : Report}

/-- Tokens of a valid formula that start with one another belong to one variable. -/
theorem Formula.eq_of_prefix_tokens (h : f.validate unitLimit = .ok report)
    (hvalid : report.valid = true) {v w : Variable} (hv : v ∈ f.questions) (hw : w ∈ f.questions)
    {s t : String} (ht : t ∈ v.tokens) (hs : s ∈ w.tokens) (hlead : t.toList <+: s.toList) :
    v = w := by
  by_contra hne
  have hapart : Apart v w := (pairwise_apart_of_valid h hvalid).forall hv hw hne
  exact Variable.not_prefix_of_apart hapart ht hs hlead

/-- **Only options straddle**, from one option of a variable to another one whose id goes on with
the operator. -/
theorem Formula.exists_choices_of_straddles (h : f.validate unitLimit = .ok report)
    (hvalid : report.valid = true) {s t : String} (hs : s ∈ f.tokens) (ht : t ∈ f.tokens)
    {sign : Char} {u : List Char} (hstraddles : Straddles s.toList t.toList sign u) :
    ∃ v ∈ f.questions, v.isMultiSelect = true ∧ ∃ o ∈ v.choices, ∃ p ∈ v.choices,
      t = v.choiceToken o ∧ s = v.choiceToken p ∧ o.id.toList ++ [sign] <+: p.id.toList := by
  obtain ⟨w, rest, -, -, -, heq⟩ := hstraddles
  obtain ⟨v, hv, htoken⟩ := List.mem_flatMap.mp ht
  obtain ⟨v', hv', hstoken⟩ := List.mem_flatMap.mp hs
  have hlead : t.toList <+: s.toList := ⟨sign :: w, heq.symm⟩
  obtain rfl := eq_of_prefix_tokens h hvalid hv hv' htoken hstoken hlead
  by_cases hmulti : v.isMultiSelect = true
  · rw [Variable.tokens_of_isMultiSelect hmulti] at htoken hstoken
    obtain ⟨o, ho, rfl⟩ := List.mem_map.mp htoken
    obtain ⟨p, hp, rfl⟩ := List.mem_map.mp hstoken
    refine ⟨v, hv, hmulti, o, ho, p, hp, rfl, rfl, w, ?_⟩
    simp only [Variable.choiceToken, String.toList_append, List.append_assoc] at heq
    have hid := List.append_cancel_left (List.append_cancel_left heq)
    rw [hid, List.append_assoc]
    rfl
  · -- the only token of the variable does not go on
    rw [Variable.tokens_of_not_isMultiSelect hmulti, List.mem_singleton] at htoken hstoken
    rw [hstoken, htoken] at heq
    have hlength := congrArg List.length heq
    simp only [List.length_append, List.length_cons] at hlength
    omega

/-- What is written for two tokens that are cut apart. -/
theorem replaceTokens_of_segments {tokens : OrderedMap Contribution} {t u : String} {sign : Char}
    {c d : Contribution} (ht : tokens.find? t = some c) (hu : tokens.find? u = some d)
    (hcut : segments (tokens.keys.map String.toList) (t.toList ++ sign :: u.toList)
      = [.token t.toList, .plain sign, .token u.toList]) :
    replaceTokens (replacements tokens) (t.toList ++ sign :: u.toList)
      = c.factor ++ sign :: d.factor := by
  rw [replaceTokens, keys_replacements, hcut]
  simp [Segment.render, lookup_replacements, ht, hu]

/-- **Two tokens with an operator between them are read as these two tokens**, exactly if no token
straddles, and in a valid formula only an option straddles, from another option of its variable
whose id it continues over the operator. Where none does, what is computed for the two tokens is the
contribution of the first one, the operator and the contribution of the second one, whatever the
effective values are. -/
theorem Formula.operands_read_apart (h : f.validate unitLimit = .ok report)
    (hvalid : report.valid = true) (hids : ∀ v ∈ f.questions, IsIdentifier v.id) {t u : String}
    (ht : t ∈ f.tokens) (hu : u ∈ f.tokens) (op : Operator) :
    (segments (f.tokens.map String.toList) (t.toList ++ op.sign :: u.toList)
        = [.token t.toList, .plain op.sign, .token u.toList]
      ↔ ∀ s ∈ f.tokens, ¬ Straddles s.toList t.toList op.sign u.toList)
      ∧ (∀ s ∈ f.tokens, Straddles s.toList t.toList op.sign u.toList →
        ∃ v ∈ f.questions, v.isMultiSelect = true ∧ ∃ o ∈ v.choices, ∃ p ∈ v.choices,
          t = v.choiceToken o ∧ s = v.choiceToken p ∧ o.id.toList ++ [op.sign] <+: p.id.toList)
      ∧ ((∀ s ∈ f.tokens, ¬ Straddles s.toList t.toList op.sign u.toList) →
        ∀ effective : OrderedMap Value, ∃ c d,
          (tokenMap f.questions effective).contributions.find? t = some c
            ∧ (tokenMap f.questions effective).contributions.find? u = some d
            ∧ replaceTokens (replacements (tokenMap f.questions effective).contributions)
                (t.toList ++ op.sign :: u.toList) = c.factor ++ op.sign :: d.factor) := by
  have hnodup := nodup_tokens_of_valid h hvalid
  have hcut : segments (f.tokens.map String.toList) (t.toList ++ op.sign :: u.toList)
        = [.token t.toList, .plain op.sign, .token u.toList]
      ↔ ∀ s ∈ f.tokens, ¬ Straddles s.toList t.toList op.sign u.toList := by
    have hnames : ∀ name ∈ f.tokens.map String.toList, startsInWord name = true := by
      intro name hname
      obtain ⟨token, htoken, rfl⟩ := List.mem_map.mp hname
      exact startsInWord_of_mem_tokens hids htoken
    rw [segments_operands_iff hnames (List.mem_map_of_mem ht) (List.mem_map_of_mem hu)
      op.not_isWordChar_sign, List.forall_mem_map]
  refine ⟨hcut, fun s hs => exists_choices_of_straddles h hvalid hs ht, fun hnone effective => ?_⟩
  have hfound : ∀ token ∈ f.tokens, ∃ c,
      (tokenMap f.questions effective).contributions.find? token = some c := by
    intro token htoken
    obtain ⟨v, hv, hown⟩ := List.mem_flatMap.mp htoken
    obtain ⟨c, -, hc⟩ := exists_contribution hnodup effective hv hown
    exact ⟨c, hc⟩
  obtain ⟨c, hc⟩ := hfound t ht
  obtain ⟨d, hd⟩ := hfound u hu
  refine ⟨c, d, hc, hd, replaceTokens_of_segments hc hd ?_⟩
  have hkeys : (tokenMap f.questions effective).contributions.keys = f.tokens := by
    rw [contributions_tokenMap hnodup, keys_flatMap_contributions hnodup]
    rfl
  rw [hkeys]
  exact hcut.mpr hnone

end Valid

/-- What a gate costs, less the length of the fence. -/
theorem Formula.operands_read_apart_fence :
    let effective := [("length", Value.int 10), ("extra", .list [.text "gate"])]
    replaceTokens (replacements (tokenMap Sample.fence.questions effective).contributions)
      "extra_gate-length".toList = "120-10".toList := by
  intro effective
  obtain ⟨report, h, hvalid⟩ := validate_fence
  have hids : ∀ v ∈ Sample.fence.questions, IsIdentifier v.id := by decide
  have hgate : "extra_gate" ∈ Sample.fence.tokens := by decide
  have hlength : "length" ∈ Sample.fence.tokens := by decide
  have hnone : ∀ s ∈ Sample.fence.tokens,
      ¬ Straddles s.toList "extra_gate".toList '-' "length".toList := by decide
  obtain ⟨-, -, hread⟩ :=
    Formula.operands_read_apart h hvalid hids hgate hlength .sub
  obtain ⟨c, d, hc, hd, htext⟩ := hread hnone effective
  obtain rfl : Contribution.number (.whole 120) = c := Option.some.inj hc
  obtain rfl : Contribution.number (.whole 10) = d := Option.some.inj hd
  exact htext.trans (by decide)

/-- Where waxing is also offered together with a wash, a sum of the two is read as this offer. -/
theorem Formula.operands_read_together_carWash :
    let effective := [("wash", Value.int 1), ("extra", .list [.text "wax"])]
    let tokens := (tokenMap Sample.carWash.questions effective).contributions
    (∃ report, Sample.carWash.validate defaultUnitLimit = .ok report ∧ report.valid = true)
      ∧ (∀ v ∈ Sample.carWash.questions, IsIdentifier v.id)
      ∧ "extra_wax" ∈ Sample.carWash.tokens ∧ "wash" ∈ Sample.carWash.tokens
      ∧ tokens.find? "extra_wax" = some (.number (.whole 10))
      ∧ tokens.find? "wash" = some (.number (.whole 1))
      ∧ replaceTokens (replacements tokens) "extra_wax+wash".toList = "0".toList := by
  have hmeasured : ∀ v ∈ Sample.carWash.questions, v.IsMeasured := by decide
  refine ⟨⟨_, validate_eq_ok_iff.mpr ⟨hmeasured, rfl⟩, by decide⟩, ?_⟩
  decide

end Tariff
