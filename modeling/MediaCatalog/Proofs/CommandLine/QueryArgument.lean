import MediaCatalog.CommandLine.Run
import MediaCatalog.Proofs.Calendar.Years
import MediaCatalog.Proofs.Catalog.Records
import MediaCatalog.Proofs.Outcomes
import Mathlib.Data.List.TakeWhile

/-!
The query as an argument of the program. A hyphen is the negation of the query language and begins the options of
the command line, and an argument that can be read as an option is not a query any more.
-/

namespace MediaCatalog.CommandLine

open Catalog Files

theorem toList_splitEquals (text : String) :
    (splitEquals text).1.toList = text.toList.takeWhile (· != '=') := by
  rw [splitEquals]
  split
  · rename_i hall
    exact (List.takeWhile_eq_self_iff.mpr (List.dropWhile_eq_nil_iff.mp hall)).symm
  · exact String.toList_ofList

/-- Whether an argument stands for the option with a name: it is the name, perhaps with more letters behind it, or
the beginning of a long name, perhaps with a value behind an equals sign. -/
def abbreviates (text name : List Char) : Bool :=
  match text with
  | '-' :: '-' :: _ => (text.takeWhile (· != '=')).isPrefixOf name
  | '-' :: letter :: _ => name = ['-', letter] || text.isPrefixOf name
  | _ => false

theorem length_abbreviated (usage : Usage) (text : String) :
    (abbreviated usage text).length =
      (usage.names.map fun entry => entry.1.toList).countP (abbreviates text.toList) := by
  have hstart := toList_splitEquals text
  rw [List.countP_map, abbreviated]
  generalize text.toList = chars at hstart
  split
  · rw [List.length_filterMap_eq_countP]
    refine List.countP_congr fun entry _ => ?_
    simp only [Function.comp_apply, abbreviates, hstart]
    split <;> simp_all
  · rw [List.length_filterMap_eq_countP]
    refine List.countP_congr fun entry _ => ?_
    simp only [Function.comp_apply, abbreviates]
    split <;> simp_all
  · refine (List.countP_eq_zero.mpr fun entry _ => ?_).symm
    simp only [Function.comp_apply, abbreviates]
    exact Bool.false_ne_true

/-- An argument is no option if it has no hyphen in front, is nothing but a hyphen, or cannot be read as an option
and is a negative number or holds a space. -/
theorem argumentKind_eq_operand_iff {usage : Usage} (hhyphen : usage.named? "-" = none) {text : String} :
    argumentKind usage text = .ok .operand ↔
      text.toList.head? ≠ some '-' ∨ text = "-" ∨
        (usage.named? text = none ∧ assigned? usage text = none ∧ abbreviated usage text = [] ∧
          (looksNegative text ∨ ' ' ∈ text.toList)) := by
  by_cases hhead : text.toList.head? = some '-'
  · have htext : ¬(text = "" ∨ text.toList.head? ≠ some '-') := by
      rintro (rfl | hne)
      · simp at hhead
      · exact hne hhead
    rw [argumentKind, if_neg htext]
    by_cases hlone : text = "-"
    · subst hlone
      simp [hhyphen]
    · cases hnamed : usage.named? text with
      | some spec => simp [hhead, hlone]
      | none =>
          rcases hassigned : assigned? usage text with _ | use <;>
            rcases habbreviated : abbreviated usage text with _ | ⟨use, _ | ⟨other, more⟩⟩ <;>
            cases looksNegative text <;> simp [hhead, hlone]
  · have htext : text = "" ∨ text.toList.head? ≠ some '-' := .inr hhead
    rw [argumentKind, if_pos htext]
    simp [hhead]

theorem two_le_length_abbreviated {usage : Usage} {text : String} {exit : EarlyExit}
    (h : argumentKind usage text = .error exit) :
    text.toList.head? = some '-' ∧ text ≠ "-" ∧ 2 ≤ (abbreviated usage text).length := by
  rw [argumentKind] at h
  split at h
  · cases h
  · rename_i htext
    split at h
    · cases h
    · split at h
      · cases h
      · rename_i hlone
        refine ⟨by simp_all, hlone, ?_⟩
        split at h
        · cases h
        · cases h
        · rename_i hmore
          rw [hmore]
          simp
        · split at h <;> cases h

/-- The long names of the options of a search. -/
def searchOptionNames : List String :=
  ["--help", "--sort", "--order", "--csv", "--progress"]

/-- Whether a text begins like the option of one letter or like a long name, which may be shortened and have a value
behind an equals sign. -/
def BeginsLikeOption (text : List Char) : Prop :=
  ['-', 'h'] <+: text ∨
    (['-', '-'] <+: text ∧ ∃ name ∈ searchOptionNames, text.takeWhile (· != '=') <+: name.toList)

instance (text : List Char) : Decidable (BeginsLikeOption text) :=
  inferInstanceAs (Decidable (_ ∨ _))

/-- Whether a query cannot be given to a search as its only argument. -/
def TakenForOption (query : String) : Prop :=
  query.toList.head? = some '-' ∧ query ≠ "-" ∧
    (BeginsLikeOption query.toList ∨ ¬(looksNegative query ∨ ' ' ∈ query.toList))

instance (query : String) : Decidable (TakenForOption query) :=
  inferInstanceAs (Decidable (_ ∧ _ ∧ _))

theorem beginsLikeOption_of_named {name : String} {text : List Char} {spec : OptionSpec}
    (hnamed : searchUsage.named? name = some spec) (hfront : name.toList <+: text)
    (hstart : text.takeWhile (· != '=') <+: name.toList) : BeginsLikeOption text := by
  have hnames : searchUsage.names.map Prod.fst = "-h" :: searchOptionNames := rfl
  have hlong : ∀ name ∈ searchOptionNames, ['-', '-'] <+: name.toList := by decide
  obtain ⟨before, after, hsplit, _⟩ := List.lookup_eq_some_iff.mp hnamed
  have hmem : name ∈ "-h" :: searchOptionNames := by
    rw [← hnames, hsplit]
    simp
  rcases List.mem_cons.mp hmem with rfl | hmem
  · exact .inl hfront
  · exact .inr ⟨(hlong name hmem).trans hfront, name, hmem, hstart⟩

theorem named_eq_none {text : String} (h : ¬BeginsLikeOption text.toList) : searchUsage.named? text = none := by
  by_contra hnamed
  obtain ⟨spec, hspec⟩ := Option.ne_none_iff_exists'.mp hnamed
  exact h (beginsLikeOption_of_named hspec (List.prefix_refl _) (List.takeWhile_prefix _))

theorem assigned_eq_none {text : String} (h : ¬BeginsLikeOption text.toList) : assigned? searchUsage text = none := by
  by_contra hassigned
  obtain ⟨use, huse⟩ := Option.ne_none_iff_exists'.mp hassigned
  rw [assigned?] at huse
  have hname := toList_splitEquals text
  split at huse
  · rename_i name value hsplit
    obtain ⟨spec, hspec, _⟩ := Option.map_eq_some_iff.mp huse
    rw [hsplit] at hname
    exact h (beginsLikeOption_of_named hspec (hname ▸ List.takeWhile_prefix _) (hname ▸ List.prefix_refl _))
  · cases huse

theorem abbreviated_search_eq_nil_iff {text : String} {c : Char} {rest : List Char}
    (htext : text.toList = '-' :: c :: rest) :
    abbreviated searchUsage text = [] ↔ ¬BeginsLikeOption text.toList := by
  have hnames : searchUsage.names.map (fun entry => entry.1.toList) =
      ['-', 'h'] :: searchOptionNames.map String.toList := by decide
  rw [← List.length_eq_zero_iff, length_abbreviated, hnames, List.countP_eq_zero, htext]
  by_cases hc : c = '-'
  · subst hc
    simp [abbreviates, BeginsLikeOption]
  · have hc' : '-' ≠ c := Ne.symm hc
    by_cases hh : c = 'h'
    · subst hh
      simp [abbreviates, BeginsLikeOption]
    · have hh' : 'h' ≠ c := Ne.symm hh
      simp [abbreviates, BeginsLikeOption, searchOptionNames, hc, hc', hh, hh']

theorem length_abbreviated_program_le {text : String} {c : Char} {rest : List Char}
    (htext : text.toList = '-' :: c :: rest) (h : ¬BeginsLikeOption text.toList) :
    (abbreviated programUsage text).length ≤ 1 := by
  have hnames : programUsage.names.map (fun entry => entry.1.toList) =
      [['-', 'h'], ['-', '-', 'h', 'e', 'l', 'p'], ['-', '-', 'd', 'b'], ['-', 'v'],
        ['-', '-', 'v', 'e', 'r', 'b', 'o', 's', 'e'], ['-', '-', 'l', 'o', 'g', '-', 'f', 'i', 'l', 'e']] := by
    decide
  rw [length_abbreviated, hnames, htext]
  by_cases hc : c = '-'
  · subst hc
    have hstart : rest.takeWhile (· != '=') ≠ [] := by
      intro hnil
      refine h (.inr ⟨by rw [htext]; simp, "--help", by simp [searchOptionNames], ?_⟩)
      rw [htext]
      simp [hnil]
    -- The first letter of a long name tells which one it is.
    obtain ⟨letter, start, hcons⟩ := List.exists_cons_of_ne_nil hstart
    simp only [abbreviates, List.countP_cons, List.countP_nil]
    by_cases hletter : letter = 'h' ∨ letter = 'd' ∨ letter = 'v' ∨ letter = 'l'
    · rcases hletter with rfl | rfl | rfl | rfl <;> simp [hcons] <;> split <;> simp
    · obtain ⟨hh, hd, hv, hl⟩ : letter ≠ 'h' ∧ letter ≠ 'd' ∧ letter ≠ 'v' ∧ letter ≠ 'l' := by
        simpa [not_or] using hletter
      simp [hcons, hh, hd, hv, hl]
  · have hh : c ≠ 'h' := by
      rintro rfl
      exact h (.inl (by rw [htext]; simp))
    simp only [abbreviates, List.countP_cons, List.countP_nil]
    by_cases hv : c = 'v'
    · simp [hv]
    · simp [hc, hh, hv, Ne.symm hc, Ne.symm hh, Ne.symm hv]

theorem exists_toList_eq {text : String} (hhead : text.toList.head? = some '-') (hlone : text ≠ "-") :
    ∃ c rest, text.toList = '-' :: c :: rest := by
  obtain ⟨rest, hrest⟩ := List.head?_eq_some_iff.mp hhead
  cases rest with
  | nil => exact absurd (String.toList_inj.mp hrest) hlone
  | cons c rest => exact ⟨c, rest, hrest⟩

/-- A search takes an argument for a query exactly if it cannot be taken for an option. -/
theorem argumentKind_search_iff {query : String} :
    argumentKind searchUsage query = .ok .operand ↔ ¬TakenForOption query := by
  rw [argumentKind_eq_operand_iff rfl, TakenForOption]
  by_cases hhead : query.toList.head? = some '-'
  · by_cases hlone : query = "-"
    · simp [hlone]
    · obtain ⟨c, rest, htext⟩ := exists_toList_eq hhead hlone
      rw [abbreviated_search_eq_nil_iff htext]
      by_cases hbegins : BeginsLikeOption query.toList
      · simp [hhead, hlone, hbegins]
      · cases looksNegative query <;> simp [hhead, hlone, hbegins, named_eq_none, assigned_eq_none]
  · simp [hhead]

theorem exists_argumentKind_program {query : String} (h : ¬TakenForOption query) :
    ∃ kind, argumentKind programUsage query = .ok kind := by
  cases hkind : argumentKind programUsage query with
  | ok kind => exact ⟨kind, rfl⟩
  | error exit =>
      obtain ⟨hhead, hlone, hlength⟩ := two_le_length_abbreviated hkind
      obtain ⟨c, rest, htext⟩ := exists_toList_eq hhead hlone
      have hbegins : ¬BeginsLikeOption query.toList := fun hbegins => h ⟨hhead, hlone, .inl hbegins⟩
      have hle := length_abbreviated_program_le htext hbegins
      omega

theorem classify_singleton (usage : Usage) (text : String) :
    classify usage [text] =
      if text = "--" then .ok [⟨text, .separator⟩]
      else (argumentKind usage text).map fun kind => [⟨text, kind⟩] := by
  rw [classify]
  split
  · rfl
  · cases argumentKind usage text <;> rfl

/-- The program leaves it to the search what an argument behind it is. -/
theorem gather_program (query : String) :
    gather programUsage ["search", query] =
      (classify programUsage [query]).map fun _ => { operands := some ["search", query] } := by
  have hsearch : argumentKind programUsage "search" = .ok .operand := rfl
  rw [gather, classify, if_neg (by decide), hsearch, classify_singleton]
  split
  · rfl
  · cases argumentKind programUsage query <;> rfl

theorem gather_search_operand {query : String} (hquery : query ≠ "--")
    (h : argumentKind searchUsage query = .ok .operand) :
    gather searchUsage [query] = .ok { operands := some [query] } := by
  rw [gather, classify_singleton, if_neg hquery, h]
  rfl

theorem operands_addOption {f f' : Findings} {spec : OptionSpec} {value : String}
    (h : f.addOption spec value = .ok f') : f'.operands = f.operands := by
  rw [Findings.addOption] at h
  split at h
  · cases h
  · cases h
    rfl
  · split at h <;> cases h
    rfl

theorem operands_foldlM_addOption {specs : List OptionSpec} {f f' : Findings}
    (h : specs.foldlM (fun f spec => f.addOption spec "") f = .ok f') : f'.operands = f.operands := by
  induction specs generalizing f with
  | nil =>
      cases h
      rfl
  | cons spec specs ih =>
      rw [List.foldlM_cons] at h
      obtain ⟨next, hnext, hrest⟩ := Except.bind_eq_ok_iff.mp h
      exact (ih hrest).trans (operands_addOption hnext)

theorem operands_addAssigned {usage : Usage} {f f' : Findings} {spec : OptionSpec} {name value : String}
    (h : Findings.addAssigned usage f spec name value = .ok f') : f'.operands = f.operands := by
  rw [Findings.addAssigned] at h
  split at h
  · exact operands_addOption h
  · split at h
    · split at h
      · exact operands_foldlM_addOption h
      · cases h
    · cases h

theorem operands_gatherOption {usage : Usage} {f f' : Findings} {use : OptionUse} {args rest : List Argument}
    (h : gatherOption usage f use args = .ok (f', rest)) : f'.operands = f.operands := by
  unfold gatherOption at h
  split at h
  · cases h
    rfl
  · obtain ⟨next, hnext, heq⟩ := Except.map_eq_ok_iff.mp h
    cases heq
    exact operands_addAssigned hnext
  · split at h
    · obtain ⟨next, hnext, heq⟩ := Except.map_eq_ok_iff.mp h
      cases heq
      exact operands_addOption hnext
    · cases h
    · obtain ⟨next, hnext, heq⟩ := Except.map_eq_ok_iff.mp h
      cases heq
      exact operands_addOption hnext

theorem operands_gather_of_taken {query : String} {f : Findings} (hquery : TakenForOption query)
    (h : gather searchUsage [query] = .ok f) : f.operands = none := by
  rw [gather, classify_singleton] at h
  split at h
  · cases h
    rfl
  · cases hkind : argumentKind searchUsage query with
    | error exit =>
        rw [hkind] at h
        cases h
    | ok kind =>
        rw [hkind] at h
        cases kind with
        | operand => exact absurd hquery (argumentKind_search_iff.mp hkind)
        | separator =>
            cases h
            rfl
        | option use =>
            have h : gatherFrom searchUsage 1 {} [⟨query, .option use⟩] = .ok f := h
            obtain ⟨⟨next, rest⟩, hnext, hrest⟩ := Except.bind_eq_ok_iff.mp h
            cases hrest
            exact operands_gatherOption hnext

theorem exists_readTask_error {query : String} (h : TakenForOption query) :
    ∃ exit, readTask "search" [query] = .error exit := by
  have hcommand : ∃ exit, gatherCommand searchUsage [query] = .error exit := by
    rw [gatherCommand]
    cases hgather : gather searchUsage [query] with
    | error exit => exact ⟨exit, rfl⟩
    | ok f =>
        have hnone := operands_gather_of_taken h hgather
        refine ⟨.usageError, ?_⟩
        change Except.bind (.ok f) _ = _
        rw [Except.ok_bind, hnone]
  obtain ⟨exit, hexit⟩ := hcommand
  refine ⟨exit, ?_⟩
  simp only [readTask, hexit]
  rfl

theorem exists_readInvocation_error {query : String} (h : TakenForOption query) :
    ∃ exit, readInvocation ["search", query] = .error exit := by
  obtain ⟨exit, hexit⟩ := exists_readTask_error h
  rw [readInvocation, gather_program]
  cases classify programUsage [query] with
  | error early => exact ⟨early, rfl⟩
  | ok args =>
      refine ⟨exit, ?_⟩
      change Except.bind (readTask "search" [query]) _ = _
      rw [hexit]
      rfl

theorem readInvocation_search {query : String} (h : ¬TakenForOption query) :
    readInvocation ["search", query] =
      .ok ⟨defaultCatalogFile, none, .search query none none none⟩ := by
  have hquery : query ≠ "--" := by
    rintro rfl
    exact h (by decide)
  obtain ⟨kind, hkind⟩ := exists_argumentKind_program h
  have hsearch := gather_search_operand hquery (argumentKind_search_iff.mpr h)
  have htask : readTask "search" [query] = .ok (.search query none none none, false) := by
    simp only [readTask, gatherCommand, hsearch]
    rfl
  rw [readInvocation, gather_program, classify_singleton, if_neg hquery, hkind]
  change Except.bind (readTask "search" [query]) _ = _
  rw [htask]
  rfl

/-- The program answers with what the search in the catalog comes to, behind the lines of the log: with the table, or
with the error of the query. -/
structure AnswersSearch (s : Surroundings) (path : FilePath) (contents : Contents) (query : String) : Prop where
  table {results : List SearchResult}
    (h : ((s.application contents).search query none none).outcome = .ok results) :
    (runProgram ["search", query] s).status = 0 ∧
      (runProgram ["search", query] s).printed = Report.textOfLines
        (("[INFO] Connecting to database: " ++ path.written) ::
          (Application.searchLog query results).map LogEntry.written ++ Report.tableLines results)
  invalid {error : Query.QueryError}
    (h : ((s.application contents).search query none none).outcome = .error (.query error)) :
    (runProgram ["search", query] s).status = 1 ∧
      (runProgram ["search", query] s).printed = Report.textOfLines
        ["[INFO] Connecting to database: " ++ path.written, "[ERROR] Invalid query: " ++ error.message]

theorem written_connecting (path : String) :
    (LogEntry.info ("Connecting to database: " ++ path)).written = "[INFO] Connecting to database: " ++ path := by
  rw [LogEntry.written, LogEntry.info, ← String.append_assoc]
  rfl

theorem written_invalid (message : String) :
    (LogEntry.error ("Invalid query: " ++ message)).written = "[ERROR] Invalid query: " ++ message := by
  rw [LogEntry.written, LogEntry.error, ← String.append_assoc]
  rfl

theorem join_written (entries : List LogEntry) (lines : List String) :
    String.join ((entries.map Output.log ++ lines.map Output.line).map Output.written) =
      Report.textOfLines (entries.map LogEntry.written ++ lines) := by
  simp only [Report.textOfLines, List.map_append, List.map_map]
  rfl

theorem log_search (app : Application) (query : String) :
    (app.search query none none).log =
      match (app.search query none none).outcome with
      | .ok results => Application.searchLog query results
      | .error _ => [] := rfl

section Surroundings

variable {s : Surroundings} {path : FilePath} {contents : Contents} {query : String}

theorem runProgram_search (hpath : s.resolve defaultCatalogFile = .ok path) (h : ¬TakenForOption query) :
    (runProgram ["search", query] s).status = (runSearch s path query none none none).ending.status ∧
      (runProgram ["search", query] s).printed = String.join
        (((runSearch s path query none none none).outputs ++
          (runSearch s path query none none none).ending.outputs).map Output.written) := by
  have hrun : runInvocation s ⟨defaultCatalogFile, none, .search query none none none⟩ =
      runSearch s path query none none none := by
    simp only [runInvocation, hpath]
  rw [runProgram, readInvocation_search h]
  simp only [Option.map_none, Option.getD_none, hrun, and_self]

theorem answersSearch (hpath : s.resolve defaultCatalogFile = .ok path)
    (hopen : s.openCatalog? path = some contents) (h : ¬TakenForOption query) :
    AnswersSearch s path contents query := by
  obtain ⟨hstatus, hprinted⟩ := runProgram_search hpath h
  constructor
  · intro results houtcome
    rw [hstatus, hprinted]
    simp only [runSearch, withCatalog, hopen, log_search, houtcome]
    refine ⟨rfl, ?_⟩
    have hjoin := join_written
      (.info ("Connecting to database: " ++ path.written) :: Application.searchLog query results)
      (Report.tableLines results)
    simpa [Ending.outputs, written_connecting] using hjoin
  · intro error houtcome
    rw [hstatus, hprinted]
    simp only [runSearch, withCatalog, hopen, log_search, houtcome]
    refine ⟨rfl, ?_⟩
    have hjoin := join_written
      [.info ("Connecting to database: " ++ path.written), .error ("Invalid query: " ++ error.message)] []
    simpa [Ending.outputs, written_connecting, written_invalid] using hjoin

theorem runProgram_of_taken (h : TakenForOption query) :
    (runProgram ["search", query] s).printed = "" ∧ (runProgram ["search", query] s).surroundings = s ∧
      ((runProgram ["search", query] s).status = 0 ∨ (runProgram ["search", query] s).status = 2) := by
  obtain ⟨exit, hexit⟩ := exists_readInvocation_error h
  rw [runProgram, hexit]
  cases exit <;> simp

theorem textOfLines_cons_ne_empty (line : String) (lines : List String) :
    Report.textOfLines (line :: lines) ≠ "" := by
  intro h
  have hlength := congrArg String.length h
  simp [Report.textOfLines] at hlength

/-- The query of a search reaches the parser exactly if the command line does not take it for an option. If it does,
nothing is printed or changed, and the program shows its help or refuses its arguments. -/
theorem search_answers_query (hpath : s.resolve defaultCatalogFile = .ok path)
    (hopen : s.openCatalog? path = some contents) (query : String) :
    (¬TakenForOption query → AnswersSearch s path contents query) ∧
    (TakenForOption query →
      ((runProgram ["search", query] s).printed = "" ∧ (runProgram ["search", query] s).surroundings = s ∧
        ((runProgram ["search", query] s).status = 0 ∨ (runProgram ["search", query] s).status = 2)) ∧
      ((∀ fault, ((s.application contents).search query none none).outcome ≠ .error (.source fault)) →
        ¬AnswersSearch s path contents query)) := by
  refine ⟨answersSearch hpath hopen, fun h => ⟨runProgram_of_taken h, fun hsearch hanswers => ?_⟩⟩
  have hprinted := (runProgram_of_taken (s := s) h).1
  cases houtcome : ((s.application contents).search query none none).outcome with
  | ok results =>
      rw [(hanswers.table houtcome).2] at hprinted
      exact textOfLines_cons_ne_empty _ _ hprinted
  | error error =>
      cases error with
      | query error =>
          rw [(hanswers.invalid houtcome).2] at hprinted
          exact textOfLines_cons_ne_empty _ _ hprinted
      | source fault => exact hsearch fault houtcome

end Surroundings

theorem resolve_defaultCatalogFile (catalogs : List (FilePath × Contents)) (now : Calendar.DateTime) (unused : Nat) :
    Surroundings.resolve ⟨.empty, ⟨.slash, []⟩, catalogs, now, unused⟩ defaultCatalogFile =
      .ok ⟨.slash, [defaultCatalogFile]⟩ := by
  have hlocate : Surroundings.locate ⟨.empty, ⟨.slash, []⟩, catalogs, now, unused⟩
      (FilePath.ofString defaultCatalogFile) = ⟨.slash, [defaultCatalogFile]⟩ := by
    have hfile : FilePath.ofString defaultCatalogFile = ⟨.relative, [defaultCatalogFile]⟩ := by decide +kernel
    rw [Surroundings.locate, hfile]
    rfl
  rw [Surroundings.resolve, hlocate]
  cbv

theorem search_answers_query_negated :
    let asset : Asset := Asset.bare "k1" (.newYear 2020 (by decide))
    let contents := (Connection.put asset Connection.new).2.commit.committed
    let path : FilePath := ⟨.slash, [defaultCatalogFile]⟩
    let s : Surroundings := ⟨.empty, ⟨.slash, []⟩, [(path, contents)], asset.importDate, 1⟩
    s.resolve defaultCatalogFile = .ok path ∧ s.openCatalog? path = some contents ∧
      ¬TakenForOption "- tag:cat" ∧ AnswersSearch s path contents "- tag:cat" ∧
      TakenForOption "-tag:cat" ∧ (runProgram ["search", "-tag:cat"] s).printed = "" := by
  intro asset contents path s
  have hpath : s.resolve defaultCatalogFile = .ok path := resolve_defaultCatalogFile _ _ _
  have hopen : s.openCatalog? path = some contents := rfl
  have hspace : ¬TakenForOption "- tag:cat" := by decide
  have htaken : TakenForOption "-tag:cat" := by decide
  exact ⟨hpath, hopen, hspace, (search_answers_query hpath hopen _).1 hspace, htaken,
    ((search_answers_query hpath hopen _).2 htaken).1.1⟩

/-- A search that finds an asset is refused if its query begins with a negation and has no space. -/
theorem search_negated_tag_refused :
    let asset : Asset := Asset.bare "k1" (.newYear 2020 (by decide))
    let contents := (Connection.put asset Connection.new).2.commit.committed
    let path : FilePath := ⟨.slash, [defaultCatalogFile]⟩
    let s : Surroundings := ⟨.empty, ⟨.slash, []⟩, [(path, contents)], asset.importDate, 1⟩
    s.resolve defaultCatalogFile = .ok path ∧ s.openCatalog? path = some contents ∧
      ((s.application contents).search "-tag:cat" none none).outcome =
        .ok [⟨"k1", "", "", asset.importDate, none⟩] ∧
      runProgram ["search", "-tag:cat"] s = ⟨2, "", s⟩ ∧ ¬AnswersSearch s path contents "-tag:cat" := by
  intro asset contents path s
  have hfound : ((s.application contents).search "-tag:cat" none none).outcome.toOption =
      some [⟨"k1", "", "", asset.importDate, none⟩] := by
    decide +kernel +zetaReduce
  have hoption : readInvocation ["search", "-tag:cat"] = .error .usageError := rfl
  have hrun : runProgram ["search", "-tag:cat"] s = ⟨2, "", s⟩ := by rw [runProgram, hoption]
  refine ⟨resolve_defaultCatalogFile _ _ _, rfl, Except.eq_ok_of_toOption hfound, hrun, fun hanswers => ?_⟩
  have hstatus := (hanswers.table (Except.eq_ok_of_toOption hfound)).1
  rw [hrun] at hstatus
  exact absurd hstatus (by decide)

end MediaCatalog.CommandLine
