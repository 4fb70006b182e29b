import MediaCatalog.Proofs.CommandLine.QueryArgument

/-!
The arguments of an import with a skip file. Either they are refused, or they ask for the import of the source with that
skip file into the catalog where it usually lies.
-/

namespace MediaCatalog.CommandLine

theorem text_of_classify {usage : Usage} {args : List String} {classified : List Argument}
    (h : classify usage args = .ok classified) : classified.map Argument.text = args := by
  induction args generalizing classified with
  | nil =>
      cases h
      rfl
  | cons text rest ih =>
      rw [classify] at h
      split_ifs at h
      · cases h
        simp [Function.comp_def]
      · obtain ⟨kind, _, h⟩ := Except.bind_eq_ok_iff.mp h
        obtain ⟨tail, htail, h⟩ := Except.bind_eq_ok_iff.mp h
        cases h
        rw [List.map_cons, ih htail]

/-- The program leaves it to the import what the arguments behind it are. -/
theorem gather_program_import (args : List String) :
    gather programUsage ("import" :: args) =
      (classify programUsage args).map fun _ => { operands := some ("import" :: args) } := by
  have himport : argumentKind programUsage "import" = .ok .operand := rfl
  rw [gather, classify, if_neg (by decide), himport]
  cases hclassify : classify programUsage args with
  | error exit => rfl
  | ok classified =>
      have htexts : gatherFrom programUsage (classified.length + 1) {} (⟨"import", .operand⟩ :: classified) =
          .ok { operands := some ("import" :: classified.map Argument.text) } := by
        cases classified <;> rfl
      rw [text_of_classify hclassify] at htexts
      exact htexts

/-- The option of an import that names a skip file. -/
def skipFileOption : OptionSpec :=
  ⟨["--skip-dirs-file"], .value []⟩

def skipFileArgument : Argument :=
  ⟨"--skip-dirs-file", .option (.known skipFileOption "--skip-dirs-file" none)⟩

theorem gatherFrom_skipFile (f : Findings) (file : String) (kind : ArgumentKind) :
    gatherFrom importUsage 2 f [skipFileArgument, ⟨file, kind⟩] =
      if kind = .operand then .ok { f with options := f.options ++ [("--skip-dirs-file", file)] }
      else .error .usageError := by
  cases kind <;> rfl

theorem gatherOption_behind_option {usage : Usage} {f f' : Findings} {use : OptionUse} {text : String}
    {next : OptionUse} {args rest : List Argument}
    (h : gatherOption usage f use (⟨text, .option next⟩ :: args) = .ok (f', rest)) :
    rest = ⟨text, .option next⟩ :: args := by
  unfold gatherOption at h
  split at h
  · cases h
    rfl
  · obtain ⟨_, _, heq⟩ := Except.map_eq_ok_iff.mp h
    cases heq
    rfl
  · split at h
    · rename_i heq
      cases heq
    · cases h
    · obtain ⟨_, _, heq⟩ := Except.map_eq_ok_iff.mp h
      cases heq
      rfl

theorem exists_gatherCommand_error {usage : Usage} {args : List String}
    (h : ∀ f, gather usage args = .ok f → f.operands = none) : ∃ exit, gatherCommand usage args = .error exit := by
  rw [gatherCommand]
  cases hgather : gather usage args with
  | error exit => exact ⟨exit, rfl⟩
  | ok f =>
      refine ⟨.usageError, ?_⟩
      change Except.bind (.ok f) _ = _
      rw [Except.ok_bind, h f hgather]

/-- Without a source the option alone does not make an import. -/
theorem operands_gatherFrom_skipFile {f f' : Findings} {file : String} {kind : ArgumentKind}
    (h : gatherFrom importUsage 2 f [skipFileArgument, ⟨file, kind⟩] = .ok f') : f'.operands = f.operands := by
  rw [gatherFrom_skipFile] at h
  split_ifs at h
  cases h
  rfl

theorem exists_classify_singleton {usage : Usage} {text : String} {args : List Argument}
    (h : classify usage [text] = .ok args) : ∃ kind, args = [⟨text, kind⟩] := by
  rw [classify_singleton] at h
  split_ifs at h
  · cases h
    exact ⟨_, rfl⟩
  · obtain ⟨kind, _, rfl⟩ := Except.map_eq_ok_iff.mp h
    exact ⟨kind, rfl⟩

theorem gatherCommand_import (source file : String) :
    (∃ exit, gatherCommand importUsage [source, "--skip-dirs-file", file] = .error exit) ∨
      (∃ operand f, gatherCommand importUsage [source, "--skip-dirs-file", file] = .ok (operand, f) ∧ f.leftOver) ∨
      gatherCommand importUsage [source, "--skip-dirs-file", file] =
        .ok (source, { options := [("--skip-dirs-file", file)], operands := some [source] }) := by
  by_cases hsource : source = "--"
  · subst hsource
    exact .inr (.inl ⟨_, _, rfl, rfl⟩)
  have hskip : argumentKind importUsage "--skip-dirs-file" = .ok skipFileArgument.kind := rfl
  cases hkind : argumentKind importUsage source with
  | error exit =>
      refine .inl ⟨exit, ?_⟩
      rw [gatherCommand, gather, classify, if_neg hsource, hkind]
      rfl
  | ok kind =>
      cases hfile : classify importUsage [file] with
      | error exit =>
          refine .inl ⟨exit, ?_⟩
          rw [gatherCommand, gather, classify, if_neg hsource, hkind, classify, if_neg (by decide), hskip, hfile]
          rfl
      | ok args =>
          obtain ⟨kind', rfl⟩ := exists_classify_singleton hfile
          have hgather : gather importUsage [source, "--skip-dirs-file", file] =
              gatherFrom importUsage 3 {} [⟨source, kind⟩, skipFileArgument, ⟨file, kind'⟩] := by
            rw [gather, classify, if_neg hsource, hkind, classify, if_neg (by decide), hskip, hfile]
            rfl
          cases kind with
          | operand =>
              have hoperand : gather importUsage [source, "--skip-dirs-file", file] =
                  gatherFrom importUsage 2 { operands := some [source] } [skipFileArgument, ⟨file, kind'⟩] := hgather
              rw [gatherFrom_skipFile] at hoperand
              split_ifs at hoperand
              · refine .inr (.inr ?_)
                rw [gatherCommand, hoperand]
                rfl
              · refine .inl ⟨.usageError, ?_⟩
                rw [gatherCommand, hoperand]
                rfl
          | separator =>
              have hseparator : gather importUsage [source, "--skip-dirs-file", file] =
                  gatherFrom importUsage 2 { leftOver := true } [skipFileArgument, ⟨file, kind'⟩] := hgather
              refine .inl (exists_gatherCommand_error fun f hf => ?_)
              exact operands_gatherFrom_skipFile (hseparator ▸ hf)
          | option use =>
              refine .inl (exists_gatherCommand_error fun f hf => ?_)
              rw [hgather] at hf
              obtain ⟨⟨f', rest⟩, hoption, hf⟩ := Except.bind_eq_ok_iff.mp hf
              obtain rfl := gatherOption_behind_option hoption
              exact (operands_gatherFrom_skipFile hf).trans (operands_gatherOption hoption)

theorem readTask_import (args : List String) :
    readTask "import" args = (gatherCommand importUsage args).map fun found =>
      (.importTree found.1 (found.2.option? "--skip-dirs-file"), found.2.leftOver) := by
  simp only [readTask]
  cases gatherCommand importUsage args <;> rfl

/-- The arguments of an import with a skip file are refused, or ask for that import into the usual catalog. -/
theorem readInvocation_import (source file : String) :
    (∃ exit, readInvocation ["import", source, "--skip-dirs-file", file] = .error exit) ∨
      readInvocation ["import", source, "--skip-dirs-file", file] =
        .ok ⟨defaultCatalogFile, none, .importTree source (some file)⟩ := by
  rw [readInvocation, gather_program_import]
  cases classify programUsage [source, "--skip-dirs-file", file] with
  | error exit => exact .inl ⟨exit, rfl⟩
  | ok args =>
      have htask := readTask_import [source, "--skip-dirs-file", file]
      change (∃ exit, Except.bind (readTask "import" _) _ = _) ∨ Except.bind (readTask "import" _) _ = _
      rw [htask]
      rcases gatherCommand_import source file with ⟨exit, hcommand⟩ | ⟨operand, f, hcommand, hleft⟩ | hcommand
      · exact .inl ⟨exit, by rw [hcommand]; rfl⟩
      · refine .inl ⟨.usageError, ?_⟩
        rw [hcommand, Except.ok_map, Except.ok_bind]
        simp [hleft]
      · exact .inr (by rw [hcommand]; rfl)

end MediaCatalog.CommandLine
