import Stencil.Proofs.Yaml.Meaning
import Stencil.Proofs.Yaml.Scalar.Styled

/-!
# The rules for reading differ in the words for booleans only

**Tables.** A rule is looked for under the first character of a text. The table of the rules for
reading comes from that of the rules for writing: under every character the booleans are taken out,
and under four of them the narrower rule is put behind the rules that remain
(`bucket_readingRules`).

**Tags.** No other rule takes a spelling of a boolean, so the narrower rule hides behind none and
uncovers none. Only the spellings of true and false are booleans for a reader, the words `yes`, `no`,
`on` and `off` are text, and every other text keeps its tag (`plainTag_narrowed`).
-/

namespace Stencil.Yaml

open Rule

variable {cs : List Char} {rules : List Rule}

/-! ## Tables -/

/-- The rules for the texts that begin with a character, or for the empty text. -/
def bucket (rules : List Rule) : Option Char → List Rule
  | none => rules.filter Rule.allowsEmpty
  | some c => rules.filter fun r => r.firsts.contains c

/-- A text gets the tag of the first rule in its bucket that accepts it. -/
theorem plainTag_eq_bucket (hlast : cs.getLast? ≠ some '\n') :
    plainTag rules cs =
      (((bucket rules cs.head?).find? fun r => r.accepts cs).map Rule.tag).getD .text := by
  unfold plainTag
  cases cs with
  | nil =>
    have happlies : (fun r : Rule => r.applies []) = fun r => r.allowsEmpty && r.accepts [] := rfl
    rw [happlies, List.head?_nil, bucket, List.find?_filter]
    simp only [Bool.decide_and, Bool.decide_eq_true]
  | cons c cs =>
    have happlies : (fun r : Rule => r.applies (c :: cs)) =
        fun r => r.firsts.contains c && r.accepts (c :: cs) := by
      funext r
      exact applies_cons hlast
    rw [happlies, List.head?_cons, bucket, List.find?_filter]
    simp only [Bool.decide_and, Bool.decide_eq_true]

/-- In every bucket the booleans are taken out, and in four the narrower ones are put at the end. -/
theorem bucket_readingRules (first : Option Char) :
    bucket readingRules first =
      (bucket standardRules first).filter (fun r => r.tag != .bool) ++
        if first ∈ ['t', 'T', 'f', 'F'].map some then [narrowBool] else [] := by
  have hothers : standardRules.filter (fun r => r.tag != .bool) = otherRules := rfl
  cases first with
  | none => rfl
  | some c =>
    have hcomm : ((standardRules.filter fun r => r.firsts.contains c).filter fun r => r.tag != .bool) =
        otherRules.filter fun r => r.firsts.contains c := by
      rw [← hothers, List.filter_filter, List.filter_filter]
      simp only [Bool.and_comm]
    rw [bucket, bucket, hcomm, readingRules, List.filter_append]
    congr 1
    by_cases hc : c ∈ ['t', 'T', 'f', 'F']
    · have hmem : some c ∈ ['t', 'T', 'f', 'F'].map some := List.mem_map_of_mem hc
      have hfirst : narrowBool.firsts.contains c = true := List.contains_iff_mem.2 hc
      rw [if_pos hmem, List.filter_cons, if_pos hfirst]
      rfl
    · have hmem : some c ∉ ['t', 'T', 'f', 'F'].map some := by simpa using hc
      have hfirst : ¬ narrowBool.firsts.contains c = true := fun h => hc (List.contains_iff_mem.1 h)
      rw [if_neg hmem, List.filter_cons, if_neg hfirst]
      rfl

/-! ## Words -/

/-- A rule for words takes the words, if its characters are those they begin with. -/
theorem Rule.applies_words {tag : Tag} {firsts : List Char} {ws : List String}
    (hfirsts : ws.all (fun w => w.toList.head?.any firsts.contains) = true)
    (hlast : cs.getLast? ≠ some '\n') :
    (words tag firsts ws).applies cs = true ↔ cs ∈ ws.map String.toList := by
  have haccepts : (words tag firsts ws).accepts cs = true ↔ cs ∈ ws.map String.toList := by
    simp [words]
  unfold Rule.applies
  rw [if_neg (by simpa using hlast), Bool.and_eq_true, haccepts]
  refine ⟨And.right, fun hmem => ⟨?_, hmem⟩⟩
  obtain ⟨w, hw, rfl⟩ := List.mem_map.1 hmem
  have hfirst := List.all_eq_true.1 hfirsts w hw
  cases hcs : w.toList with
  | nil =>
    rw [hcs] at hfirst
    cases hfirst
  | cons c rest =>
    rw [hcs] at hfirst
    exact hfirst

/-- The words that are booleans to a writer only. -/
def lostWords : List String :=
  ["yes", "Yes", "YES", "no", "No", "NO"] ++ ["on", "On", "ON", "off", "Off", "OFF"]

theorem applies_narrowBool (hlast : cs.getLast? ≠ some '\n') :
    narrowBool.applies cs = true ↔ cs ∈ trueFalse.map String.toList :=
  applies_words (by decide) hlast

theorem applies_broadBool_iff (hlast : cs.getLast? ≠ some '\n') :
    broadBool.applies cs = true ↔
      cs ∈ trueFalse.map String.toList ∨ cs ∈ lostWords.map String.toList := by
  refine (applies_words (by decide) hlast).trans ?_
  rw [lostWords, List.map_append, List.map_append, List.map_append, List.mem_append, List.mem_append,
    List.mem_append]
  exact or_assoc.trans or_left_comm

/-- No other rule takes a spelling of a boolean. -/
theorem find?_otherRules (hlast : cs.getLast? ≠ some '\n') (h : broadBool.applies cs = true) :
    otherRules.find? (fun r => r.applies cs) = none := by
  have hnone : ∀ w ∈ trueFalse ++ lostWords, ∀ r ∈ otherRules, r.applies w.toList = false := by
    decide +kernel
  rw [applies_broadBool_iff hlast, ← List.mem_append, ← List.map_append] at h
  obtain ⟨w, hw, rfl⟩ := List.mem_map.1 h
  rw [List.find?_eq_none]
  intro r hr
  rw [hnone w hw r hr]
  exact Bool.false_ne_true

/-! ## Tags -/

/-- A boolean for a writer, or what the other rules say. -/
theorem plainTag_standardRules (cs : List Char) :
    plainTag standardRules cs = if broadBool.applies cs then .bool else plainTag otherRules cs := by
  unfold plainTag standardRules
  rw [List.find?_cons]
  cases broadBool.applies cs <;> rfl

/-- A boolean for a reader, or what the other rules say: the narrower rule comes last, but the rules
before it take none of its words. -/
theorem plainTag_readingRules (hlast : cs.getLast? ≠ some '\n') :
    plainTag readingRules cs = if narrowBool.applies cs then .bool else plainTag otherRules cs := by
  unfold plainTag readingRules
  rw [List.find?_append]
  by_cases h : narrowBool.applies cs = true
  · rw [find?_otherRules hlast (applies_broadBool h), if_pos h, List.find?_singleton, h]
    rfl
  · have hnarrow : [narrowBool].find? (fun r => r.applies cs) = none := by
      rw [List.find?_singleton, if_neg h]
    rw [hnarrow, Option.or_none, if_neg h]

/-- The rule for marks that mean nothing alone. -/
theorem eq_marks_of_tag {r : Rule} (hr : r ∈ otherRules) (htag : r.tag = .indicator) :
    r = words .indicator ['!', '&', '*'] ["!", "&", "*"] := by
  simp only [otherRules, List.mem_cons, List.not_mem_nil, or_false] at hr
  rcases hr with rfl | rfl | rfl | rfl | rfl | rfl | rfl
  all_goals first | rfl | cases htag

/-- The other rules give seven tags, and an eighth to the marks `!`, `&` and `*`. -/
theorem plainTag_otherRules (hlast : cs.getLast? ≠ some '\n') :
    plainTag otherRules cs ∈ [.null, .int, .float, .timestamp, .merge, .value, .text] ∨
      plainTag otherRules cs = .indicator ∧ cs ∈ ["!", "&", "*"].map String.toList := by
  unfold plainTag
  rcases hfind : otherRules.find? fun r => r.applies cs with _ | r
  · rw [hfind]
    exact .inl (by decide)
  · rw [hfind]
    have happlies : r.applies cs = true :=
      List.find?_some (p := fun r : Rule => r.applies cs) hfind
    have hr := List.mem_of_find?_eq_some hfind
    have htags : ∀ r ∈ otherRules, r.tag = .indicator ∨
        r.tag ∈ [.null, .int, .float, .timestamp, .merge, .value, .text] :=
      List.all_iff_forall_prop.1 (by decide)
    rcases htags r hr with htag | htag
    · rw [eq_marks_of_tag hr htag] at happlies
      exact .inr ⟨htag, (applies_words (by decide) hlast).1 happlies⟩
    · exact .inl htag

theorem plainTag_otherRules_ne_bool : plainTag otherRules cs ≠ .bool := by
  have htags : ∀ r ∈ otherRules, r.tag ≠ .bool := List.all_iff_forall_prop.1 (by decide)
  unfold plainTag
  rcases hfind : otherRules.find? fun r => r.applies cs with _ | r
  · rw [hfind]
    decide
  · rw [hfind]
    exact htags r (List.mem_of_find?_eq_some hfind)

theorem standardRules_eq_bool : plainTag standardRules cs = .bool ↔ broadBool.applies cs = true := by
  rw [plainTag_standardRules]
  split
  · next h => exact iff_of_true rfl h
  · next h => exact iff_of_false plainTag_otherRules_ne_bool h

theorem readingRules_eq_bool (hlast : cs.getLast? ≠ some '\n') :
    plainTag readingRules cs = .bool ↔ narrowBool.applies cs = true := by
  rw [plainTag_readingRules hlast]
  split
  · next h => exact iff_of_true rfl h
  · next h => exact iff_of_false plainTag_otherRules_ne_bool h

/-- The booleans for writers that are none for readers. -/
theorem eq_bool_writer_only (hlast : cs.getLast? ≠ some '\n') :
    (plainTag standardRules cs = .bool ∧ plainTag readingRules cs ≠ .bool) ↔
      cs ∈ lostWords.map String.toList := by
  have hdisjoint : ∀ w ∈ lostWords.map String.toList, w ∉ trueFalse.map String.toList := by
    decide
  rw [standardRules_eq_bool, Ne, readingRules_eq_bool hlast, applies_broadBool_iff hlast,
    applies_narrowBool hlast]
  constructor
  · rintro ⟨hmem, hnot⟩
    exact hmem.resolve_left hnot
  · intro hmem
    exact ⟨.inr hmem, hdisjoint cs hmem⟩

/-- A boolean for writers is text for readers, or a boolean too. -/
theorem plainTag_readingRules_of_bool (hlast : cs.getLast? ≠ some '\n')
    (hstandard : plainTag standardRules cs = .bool) (hreading : plainTag readingRules cs ≠ .bool) :
    plainTag readingRules cs = .text := by
  rw [Ne, readingRules_eq_bool hlast] at hreading
  rw [plainTag_readingRules hlast, if_neg hreading, plainTag,
    find?_otherRules hlast (standardRules_eq_bool.1 hstandard)]
  rfl

/-- The rules for reading narrow the booleans and change nothing else. A text, of any length, that
does not end with a line feed gets the tag of the first rule that accepts it among those under its
first character, and there the rules for reading are the rules for writing without the booleans, and
with the narrower rule behind them under four characters. So the text is a boolean for a reader if it
is a spelling of true or of false. The other booleans of a writer are the twelve spellings of yes, no,
on and off, and they are text for a reader. Every other text has the same tag for both. So what a
writer takes for text and may leave without quotes is text for a reader. -/
theorem plainTag_narrowed (cs : List Char) (hlast : cs.getLast? ≠ some '\n') :
    (∀ rules : List Rule, plainTag rules cs =
      (((bucket rules cs.head?).find? fun r => r.accepts cs).map Rule.tag).getD .text) ∧
    bucket readingRules cs.head? =
      (bucket standardRules cs.head?).filter (fun r => r.tag != .bool) ++
        (if cs.head? ∈ ['t', 'T', 'f', 'F'].map some then [narrowBool] else []) ∧
    (plainTag readingRules cs = .bool ↔
      cs ∈ ["true", "True", "TRUE", "false", "False", "FALSE"].map String.toList) ∧
    ((plainTag standardRules cs = .bool ∧ plainTag readingRules cs ≠ .bool) ↔
      cs ∈ ["yes", "Yes", "YES", "no", "No", "NO", "on", "On", "ON", "off", "Off", "OFF"].map
        String.toList) ∧
    (plainTag standardRules cs = .bool → plainTag readingRules cs ≠ .bool →
      plainTag readingRules cs = .text) ∧
    (plainTag standardRules cs ≠ .bool →
      plainTag readingRules cs = plainTag standardRules cs ∧
      (plainTag readingRules cs ∈ [.null, .int, .float, .timestamp, .merge, .value, .text] ∨
        plainTag readingRules cs = .indicator ∧ cs ∈ ["!", "&", "*"].map String.toList)) ∧
    (isPlainTag .text cs = true → plainTag readingRules cs = .text) := by
  refine ⟨fun rules => plainTag_eq_bucket hlast, bucket_readingRules cs.head?,
    (readingRules_eq_bool hlast).trans (applies_narrowBool hlast), eq_bool_writer_only hlast,
    ?_, ?_, ?_⟩
  · intro hstandard hreading
    exact plainTag_readingRules_of_bool hlast hstandard hreading
  · intro hstandard
    have hbroad : ¬ broadBool.applies cs = true := fun h => hstandard (standardRules_eq_bool.2 h)
    have hnarrow : ¬ narrowBool.applies cs = true := fun h => hbroad (applies_broadBool h)
    rw [plainTag_readingRules hlast, if_neg hnarrow, plainTag_standardRules, if_neg hbroad]
    exact ⟨rfl, plainTag_otherRules hlast⟩
  · intro htext
    exact plainTag_readingRules_of_text (beq_iff_eq.1 htext)

theorem plainTag_narrowed_off :
    "off".toList.getLast? ≠ some '\n' ∧ plainTag standardRules "off".toList = .bool ∧
      plainTag readingRules "off".toList = .text := by
  have hlast : "off".toList.getLast? ≠ some '\n' := by decide
  obtain ⟨-, -, -, hlost, htext, -, -⟩ := plainTag_narrowed "off".toList hlast
  obtain ⟨hstandard, hreading⟩ := hlost.2 (by decide)
  exact ⟨hlast, hstandard, htext hstandard hreading⟩

end Stencil.Yaml
