import OciAcmePublisher.MetricGrammar
import OciAcmePublisher.Metrics

/-!
# Sample lines are read back

The three substitutions of `_escape_label_value` write every character on its own, and what `Metric.render` makes of a sample is one
line, from which the grammar reads the name, the labels and the value back.
-/

namespace OciAcmePublisher

open Scanning MetricGrammar

/-! ## What the substitutions write -/

/-- The text of a character in a label value. -/
def escapeCharacter (c : Char) : List Char :=
  if c = '\\' then ['\\', '\\'] else if c = '"' then ['\\', '"'] else if c = '\n' then ['\\', 'n'] else [c]

/-- One after the other, the substitutions write every character on its own: none touches what an earlier one has put in, for the
backslash goes first. -/
theorem toList_escapeLabelValue (value : String) : (escapeLabelValue value).toList = value.toList.flatMap escapeCharacter := by
  simp only [escapeLabelValue, replaceCharacter, String.toList_ofList, List.flatMap_assoc]
  refine List.flatMap_congr fun c _ => ?_
  unfold escapeCharacter
  by_cases hbackslash : c = '\\'
  · rw [if_pos hbackslash, if_pos hbackslash]
    rfl
  · rw [if_neg hbackslash, if_neg hbackslash, List.flatMap_singleton]
    by_cases hquote : c = '"'
    · rw [if_pos hquote, if_pos hquote]
      rfl
    · rw [if_neg hquote, if_neg hquote, List.flatMap_singleton]
      rfl

/-- A character is written bare or as an escape that stands for it. -/
theorem escapeCharacter_cases (c : Char) :
    (escapeCharacter c = [c] ∧ c ≠ '"' ∧ c ≠ '\\' ∧ (c != '\n') = true) ∨
      ∃ d, escapeCharacter c = ['\\', d] ∧ escapeCode d = some c := by
  unfold escapeCharacter
  by_cases hbackslash : c = '\\'
  · exact Or.inr ⟨'\\', by rw [if_pos hbackslash], by rw [hbackslash]; rfl⟩
  · by_cases hquote : c = '"'
    · exact Or.inr ⟨'"', by rw [if_neg hbackslash, if_pos hquote], by rw [hquote]; rfl⟩
    · by_cases hfeed : c = '\n'
      · exact Or.inr ⟨'n', by rw [if_neg hbackslash, if_neg hquote, if_pos hfeed], by rw [hfeed]; rfl⟩
      · exact Or.inl ⟨by rw [if_neg hbackslash, if_neg hquote, if_neg hfeed], hquote, hbackslash, by simpa using hfeed⟩

/-! ## The parts of a line -/

/-- A word of the grammar is read back. -/
theorem reads_word {first rest : Char → Bool} {text : String} (h : isWord first rest text = true) :
    Reads (Reader.word first rest) (Stops rest) text.toList text.toList := by
  unfold isWord at h
  cases htext : text.toList with
  | nil =>
    rw [htext] at h
    cases h
  | cons c l =>
    rw [htext] at h
    have hword := Bool.and_eq_true_iff.1 h
    exact Reads.word hword.1 (List.all_eq_true.1 hword.2)

/-- A label is read back, before a comma or the closing brace. -/
theorem reads_label {l : String × String} (hkey : isLabelName l.1 = true) :
    Reads label (fun rest => rest.head? = some ',' ∨ rest.head? = some '}') (renderLabel l).toList l := by
  have hreads : Reads label (fun rest => rest.head? = some ',' ∨ rest.head? = some '}')
      (l.1.toList ++ ([] ++ (['='] ++ ([] ++ (['"'] ++ (l.2.toList.flatMap escapeCharacter ++ ['"'] ++ ([] ++ []))))))) l := by
    have hword : Reads (Reader.word isLabelStart isLabelCharacter) (Stops isLabelCharacter) l.1.toList l.1.toList := reads_word hkey
    refine hword.bind ?_ fun _ _ => stops_cons rfl
    refine (Reads.stand isBlank).bind ?_ fun _ _ => stops_cons rfl
    refine (Reads.symbol '=').followed ?_
    refine (Reads.stand isBlank).bind ?_ fun _ _ => stops_cons rfl
    refine (Reads.symbol '"').followed ?_
    refine (Reads.quoted (by decide) escapeCharacter_cases l.2.toList).followed ?_
    refine (Reads.stand isBlank).bind ?_ ?_
    · rw [String.ofList_toList, String.ofList_toList]
      exact Reads.pure l
    · rintro rest (hrest | hrest)
      · exact stops_of_head hrest rfl
      · exact stops_of_head hrest rfl
  have htext : (renderLabel l).toList =
      l.1.toList ++ ([] ++ (['='] ++ ([] ++ (['"'] ++ (l.2.toList.flatMap escapeCharacter ++ ['"'] ++ ([] ++ [])))))) := by
    simp [renderLabel, toList_escapeLabelValue]
  rw [htext]
  exact hreads

/-- A label begins with a character that is neither a blank nor a brace. -/
theorem renderLabel_eq_cons {l : String × String} (hkey : isLabelName l.1 = true) :
    ∃ c s, (renderLabel l).toList = c :: s ∧ c ≠ '}' ∧ isBlank c = false := by
  unfold isLabelName isWord at hkey
  cases htext : l.1.toList with
  | nil =>
    rw [htext] at hkey
    cases hkey
  | cons c s =>
    rw [htext] at hkey
    have hstart : isLabelStart c = true := (Bool.and_eq_true_iff.1 hkey).1
    refine ⟨c, s ++ "=\"".toList ++ (escapeLabelValue l.2).toList ++ "\"".toList, ?_, ?_, ?_⟩
    · simp [renderLabel, htext]
    · rintro rfl
      exact absurd hstart (by decide)
    · by_contra hblank
      have hcases : c = ' ' ∨ c = '\t' := by simpa [isBlank, or_iff_not_imp_left] using hblank
      rcases hcases with rfl | rfl
      · exact absurd hstart (by decide)
      · exact absurd hstart (by decide)

/-- The labels of a sample are read back, before a blank. -/
theorem reads_labelText {labels : List (String × String)} (hkeys : ∀ l ∈ labels, isLabelName l.1 = true) :
    Reads labelBlock (fun rest => rest.head? = some ' ') (labelText labels).toList labels := by
  cases labels with
  | nil => exact Reads.unopened _ fun rest hrest => stops_of_head hrest rfl
  | cons l labels =>
    let texts : List (List Char × (String × String)) := (l :: labels).map fun m => ((renderLabel m).toList, m)
    have hitem : ∀ x ∈ texts, Reads label (fun rest => rest.head? = some ',' ∨ rest.head? = some '}') x.1 x.2 := by
      intro x hx
      obtain ⟨m, hm, rfl⟩ := List.mem_map.1 hx
      exact reads_label (hkeys m hm)
    have hfirst : ∀ x ∈ texts, ∃ c s, x.1 = c :: s ∧ c ≠ '}' ∧
        ∀ rest, (Reader.skip isBlank).run (c :: rest) = some ((), c :: rest) := by
      intro x hx
      obtain ⟨m, hm, rfl⟩ := List.mem_map.1 hx
      obtain ⟨c, s, htext, hbrace, hblank⟩ := renderLabel_eq_cons (hkeys m hm)
      exact ⟨c, s, htext, hbrace, fun rest => Reads.stand isBlank (c :: rest) (stops_cons hblank)⟩
    have hitems : Reads (Reader.items label (Reader.skip isBlank) ',' '}') (fun rest => rest.head? = some ' ')
        ([','].intercalate (texts.map Prod.fst) ++ ['}']) (texts.map Prod.snd) := Reads.items (by decide) hitem hfirst
    have hbegin : ∀ rest, Stops isBlank ([','].intercalate (texts.map Prod.fst) ++ ['}'] ++ rest) := by
      intro rest
      obtain ⟨c, s, htext, -, hblank⟩ := renderLabel_eq_cons (hkeys l List.mem_cons_self)
      have hcons : texts.map Prod.fst = (c :: s) :: (labels.map fun m => ((renderLabel m).toList, m)).map Prod.fst := by
        rw [← htext]
        rfl
      rw [hcons, List.intercalate_cons_cons_left]
      exact stops_cons hblank
    have hblock : Reads (do Reader.skip isBlank; Reader.items label (Reader.skip isBlank) ',' '}') (fun rest => rest.head? = some ' ')
        ([] ++ ([','].intercalate (texts.map Prod.fst) ++ ['}'])) (texts.map Prod.snd) :=
      (Reads.stand isBlank).bind hitems fun rest _ => hbegin rest
    have htext : (labelText (l :: labels)).toList = '{' :: ([] ++ ([','].intercalate (texts.map Prod.fst) ++ ['}'])) := by
      simp [labelText, texts, String.toList_intercalate, Function.comp_def]
    have hlabels : texts.map Prod.snd = l :: labels := by
      simp [texts, Function.comp_def]
    rw [htext, ← hlabels]
    exact Reads.opened hblock []

/-- The text of a number is a word of the grammar, and begins with no brace. -/
theorem numberText_eq_cons (number : NumberText) :
    ∃ c l, number.1.toList = c :: l ∧ isBlank c = false ∧ c ≠ '{' ∧ isWord isValueCharacter isValueCharacter number.1 = true := by
  obtain ⟨text, hne, hcharacters⟩ := number
  have hall : (numberCharacters.all fun c => isValueCharacter c && !decide (c = '{')) = true := by decide
  have hvalue : ∀ c ∈ text.toList, isValueCharacter c = true ∧ c ≠ '{' := fun c hc => by
    simpa using List.all_eq_true.1 hall c (by simpa using List.all_eq_true.1 hcharacters c hc)
  show ∃ c l, text.toList = c :: l ∧ isBlank c = false ∧ c ≠ '{' ∧ isWord isValueCharacter isValueCharacter text = true
  cases htext : text.toList with
  | nil => exact absurd (String.toList_eq_nil_iff.1 htext) hne
  | cons c l =>
    rw [htext] at hvalue
    obtain ⟨hc, hbrace⟩ := hvalue c List.mem_cons_self
    have hblank : isBlank c = false := by
      unfold isValueCharacter at hc
      simpa using (Bool.and_eq_true_iff.1 hc).1
    refine ⟨c, l, rfl, hblank, hbrace, ?_⟩
    simp only [isWord, htext]
    exact Bool.and_eq_true_iff.2 ⟨hc, List.all_eq_true.2 fun d hd => (hvalue d (List.mem_cons_of_mem c hd)).1⟩

/-- The value and the line feed are read back, with blanks before them or none. -/
theorem reads_sampleValue (number : NumberText) {blanks : List Char} (hblanks : ∀ c ∈ blanks, isBlank c = true) :
    Reads sampleValue (fun _ => True) (blanks ++ (number.1.toList ++ ['\n'])) number.1 := by
  obtain ⟨c, l, htext, hblank, -, hword⟩ := numberText_eq_cons number
  have hvalue : Reads (do
      let value ← Reader.word isValueCharacter isValueCharacter
      Reader.skip isBlank
      Reader.symbol '\n'
      return String.ofList value) (fun _ => True) (number.1.toList ++ ([] ++ (['\n'] ++ []))) number.1 := by
    refine (reads_word hword).bind ?_ fun _ _ => stops_cons rfl
    refine (Reads.stand isBlank).bind ?_ fun _ _ => stops_cons rfl
    refine (Reads.symbol '\n').followed ?_
    rw [String.ofList_toList]
    exact Reads.pure number.1
  refine (Reads.skip hblanks).bind hvalue fun rest _ => ?_
  rw [htext]
  exact stops_cons hblank

theorem labelText_cons (l : String × String) (labels : List (String × String)) :
    ∃ u, (labelText (l :: labels)).toList = '{' :: u := by
  unfold labelText
  rw [if_neg (List.cons_ne_nil l labels), String.toList_append, String.toList_append]
  exact ⟨_, rfl⟩

/-- The labels and the value are read back. The one blank before the value is passed over where the labels begin if there are none,
and where the value begins if there are some. -/
theorem reads_sampleBody (number : NumberText) {labels : List (String × String)}
    (hkeys : ∀ l ∈ labels, isLabelName l.1 = true) :
    Reads sampleBody (fun _ => True) ((labelText labels).toList ++ ([' '] ++ (number.1.toList ++ ['\n']))) (labels, number.1) := by
  have hvalue : ∀ blanks : List Char, (∀ c ∈ blanks, isBlank c = true) →
      Reads (do let value ← sampleValue; return (labels, value)) (fun _ => True) (blanks ++ (number.1.toList ++ ['\n']))
        (labels, number.1) := by
    intro blanks hblanks
    have hpure : Reads (do let value ← sampleValue; return (labels, value)) (fun _ => True)
        (blanks ++ (number.1.toList ++ ['\n']) ++ []) (labels, number.1) :=
      (reads_sampleValue number hblanks).followed (Reads.pure (labels, number.1))
    rw [List.append_nil] at hpure
    exact hpure
  have hblank : ∀ c ∈ [' '], isBlank c = true := fun c hc => by
    rw [List.mem_singleton.1 hc]
    rfl
  cases labels with
  | nil =>
    obtain ⟨c, l, hnumber, hfirst, hbrace, -⟩ := numberText_eq_cons number
    have hnone : Reads labelBlock (Stops (· = '{')) [] [] := Reads.unopened _ fun _ hstops => hstops
    have hblanks : ∀ rest, Stops isBlank (number.1.toList ++ ['\n'] ++ rest) := fun rest => by
      rw [hnumber]
      exact stops_cons hfirst
    have hbraces : ∀ rest, Stops (· = '{') (number.1.toList ++ ['\n'] ++ rest) := fun rest => by
      rw [hnumber]
      exact stops_cons (decide_eq_false hbrace)
    refine (Reads.skip hblank).bind ?_ fun rest _ => hblanks rest
    exact hnone.bind (hvalue [] fun _ hc => absurd hc List.not_mem_nil) fun rest _ => hbraces rest
  | cons l labels =>
    have hopens : ∀ text rest, Stops isBlank ((labelText (l :: labels)).toList ++ text ++ rest) := fun text rest => by
      obtain ⟨u, hu⟩ := labelText_cons l labels
      rw [hu]
      exact stops_cons rfl
    refine (Reads.stand isBlank).bind ?_ fun rest _ => hopens _ rest
    exact (reads_labelText hkeys).bind (hvalue [' '] hblank) fun _ _ => rfl

/-- A sample line is read back, and nothing is left of it. -/
theorem reads_render {str : Metric → NumberText} {metric : Metric} {line : String} (hname : isMetricName metric.name = true)
    (hkeys : ∀ l ∈ metric.labels, isLabelName l.1 = true) (hline : metric.render str = .ok line) :
    Reads sampleLine (fun _ => True) line.toList (metric.name, metric.labels, (str metric).1) := by
  have htext : line.toList =
      metric.name.toList ++ ((labelText metric.labels).toList ++ ([' '] ++ ((str metric).1.toList ++ ['\n'])) ++ []) := by
    unfold Metric.render at hline
    split at hline
    · cases hline
      simp
    · cases hline
  have hends : ∀ text rest, Stops isNameCharacter ((labelText metric.labels).toList ++ ([' '] ++ text) ++ [] ++ rest) := by
    intro text rest
    cases metric.labels with
    | nil => exact stops_cons rfl
    | cons l labels =>
      obtain ⟨u, hu⟩ := labelText_cons l labels
      rw [hu]
      exact stops_cons rfl
  rw [htext]
  refine (reads_word hname).bind ((reads_sampleBody (str metric) hkeys).followed ?_) fun rest _ => hends _ rest
  rw [String.ofList_toList]
  exact Reads.pure _

/-! ## One line -/

theorem not_mem_word {first rest : Char → Bool} {text : String} {c : Char} (h : isWord first rest text = true)
    (hfirst : first c = false) (hrest : rest c = false) : c ∉ text.toList := by
  unfold isWord at h
  cases htext : text.toList with
  | nil => exact List.not_mem_nil
  | cons d l =>
    rw [htext] at h
    obtain ⟨hd, hl⟩ := Bool.and_eq_true_iff.1 h
    intro hc
    rcases List.mem_cons.1 hc with rfl | hc
    · rw [hfirst] at hd
      cases hd
    · rw [List.all_eq_true.1 hl c hc] at hrest
      cases hrest

/-- What is between the separators is all there is beside them. -/
theorem not_mem_intercalate {c separator : Char} {texts : List (List Char)} (hc : c ≠ separator) (h : ∀ l ∈ texts, c ∉ l) :
    c ∉ [separator].intercalate texts := by
  induction texts with
  | nil => exact List.not_mem_nil
  | cons l texts ih =>
    have hrest := ih fun m hm => h m (List.mem_cons_of_mem l hm)
    cases texts with
    | nil =>
      rw [List.intercalate_singleton]
      exact h l List.mem_cons_self
    | cons m texts =>
      rw [List.intercalate_cons_cons]
      simpa [hc] using ⟨h l List.mem_cons_self, hrest⟩

theorem not_mem_escapeLabelValue (value : String) : '\n' ∉ (escapeLabelValue value).toList := by
  rw [toList_escapeLabelValue]
  intro h
  obtain ⟨c, -, hc⟩ := List.mem_flatMap.1 h
  rcases escapeCharacter_cases c with ⟨hbare, -, -, hfeed⟩ | ⟨d, hescaped, hcode⟩
  · rw [hbare] at hc
    rw [← List.mem_singleton.1 hc] at hfeed
    exact absurd hfeed (by decide)
  · rw [hescaped] at hc
    have hd : d = '\n' := by simpa [eq_comm] using hc
    rw [hd] at hcode
    cases hcode

theorem not_mem_labelText {labels : List (String × String)} (hkeys : ∀ l ∈ labels, isLabelName l.1 = true) :
    '\n' ∉ (labelText labels).toList := by
  have hlabels : ∀ text ∈ labels.map fun l => (renderLabel l).toList, '\n' ∉ text := by
    intro text htext
    obtain ⟨l, hl, rfl⟩ := List.mem_map.1 htext
    have hkey := not_mem_word (hkeys l hl) (c := '\n') rfl rfl
    simpa [renderLabel, hkey] using not_mem_escapeLabelValue l.2
  unfold labelText
  split
  · exact List.not_mem_nil
  · have hbetween := not_mem_intercalate (by decide : '\n' ≠ ',') hlabels
    simpa [String.toList_intercalate, Function.comp_def] using hbetween

/-- A sample line ends with its only line feed. -/
theorem render_line {str : Metric → NumberText} {metric : Metric} {line : String} (hname : isMetricName metric.name = true)
    (hkeys : ∀ l ∈ metric.labels, isLabelName l.1 = true) (hline : metric.render str = .ok line) :
    ∃ text, line.toList = text ++ ['\n'] ∧ '\n' ∉ text := by
  have hnumber : '\n' ∉ (str metric).1.toList := fun h => absurd (List.all_eq_true.1 (str metric).2.2 _ h) (by decide)
  unfold Metric.render at hline
  split at hline
  · cases hline
    refine ⟨(metric.name ++ labelText metric.labels ++ " " ++ (str metric).1).toList, by simp, ?_⟩
    simpa using ⟨not_mem_word hname rfl rfl, not_mem_labelText hkeys, hnumber⟩
  · cases hline

/-! ## Samples are read back from their lines -/

/-- Every sample with a valid `oci_acme_` name, any number and label names as keys renders to one line; the grammar reads its name,
its labels and its number back from it; and no sample with other labels renders to that line. -/
theorem metric_labels_read_back (str : Metric → NumberText) (metric : Metric) (hname : isMetricName metric.name = true)
    (hnamespace : startsWith metric.name "oci_acme_" = true) (hkeys : ∀ l ∈ metric.labels, isLabelName l.1 = true) :
    ∃ line, metric.render str = .ok line ∧ (∃ text, line.toList = text ++ ['\n'] ∧ '\n' ∉ text) ∧
      sampleLine.run line.toList = some ((metric.name, metric.labels, (str metric).1), []) ∧
      ∀ (str' : Metric → NumberText) (other : Metric), isMetricName other.name = true →
        (∀ l ∈ other.labels, isLabelName l.1 = true) → other.render str' = .ok line →
        other.name = metric.name ∧ other.labels = metric.labels := by
  have hline : metric.render str = .ok (metric.name ++ labelText metric.labels ++ " " ++ (str metric).1 ++ "\n") := if_pos hnamespace
  have hread := reads_render hname hkeys hline
  refine ⟨_, hline, render_line hname hkeys hline, ?_, fun str' other hname' hkeys' hline' => ?_⟩
  · have hrun := hread [] trivial
    rw [List.append_nil] at hrun
    exact hrun
  · have hsame := ((reads_render hname' hkeys' hline').unique hread (congrArg (· ++ []) rfl) trivial trivial).1
    injection hsame with hnames hbodies
    exact ⟨hnames, (Prod.mk.inj hbodies).1⟩

/-- A sample with a comma, quotes, a backslash and a line feed in its labels. -/
def quotedSample : Metric := ⟨"oci_acme_sample", some 1, [("a", "\\n,\""), ("_b", "\n\\")]⟩

theorem metric_labels_read_back_sample :
    ∃ line, quotedSample.render (fun _ => ⟨"1", by decide⟩) = .ok line ∧ (∃ text, line.toList = text ++ ['\n'] ∧ '\n' ∉ text) ∧
      sampleLine.run line.toList = some ((quotedSample.name, quotedSample.labels, "1"), []) ∧
      ∀ (str' : Metric → NumberText) (other : Metric), isMetricName other.name = true →
        (∀ l ∈ other.labels, isLabelName l.1 = true) → other.render str' = .ok line →
        other.name = quotedSample.name ∧ other.labels = quotedSample.labels :=
  metric_labels_read_back (fun _ => ⟨"1", by decide⟩) quotedSample (by decide) (by decide) (by decide)

end OciAcmePublisher
