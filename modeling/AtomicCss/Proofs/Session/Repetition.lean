import AtomicCss.Proofs.Session.History
import AtomicCss.Proofs.Sheet

/-!
# Commands that are carried out again

A command that is carried out again collects its rules again, at a later place and perhaps from
memory. A sheet keeps the first rule for each class, so as long as the rules of the first time are
there, those of the second change nothing.

* `collected_of_keeps`: the rules of a history that drops none.
* `Session.Does.sheet_eq`: the sheet after a command of the history was carried out again.
* `Session.stylesheet_of_repeated`: the texts that a session writes are the same as before.
-/

namespace AtomicCss

/-- If no command drops the rules, those of all commands are there. -/
theorem collected_of_keeps (options : Options) {commands : List Command}
    (h : ∀ command ∈ commands, command.dropsRules = false) :
    collected options commands = commands.flatMap (Command.freshRules options) := by
  have hall : commands.rtakeWhile (fun command => !command.dropsRules) = commands := by
    rw [List.rtakeWhile_eq_self_iff]
    intro command hcommand
    simp [h command hcommand]
  rw [collected, hall]

namespace Session

variable {options : Options} {commands : List Command} {s t : Session} {command : Command}
  {answer : Answer}

/-- A command of the history that is carried out again does not change the sheet. -/
theorem Does.sheet_eq (h : s.Does command answer t) (hs : History options commands s)
    (hds : DigestTellsApart (commands.flatMap Command.definitions))
    (hkeeps : ∀ c ∈ commands, c.dropsRules = false) (hmem : command ∈ commands) :
    t.sheet = s.sheet := by
  obtain ⟨rfl, hfaithful⟩ := hs.faithful
  have hsub : command.definitions ⊆ commands.flatMap Command.definitions :=
    fun d hd => List.mem_flatMap.2 ⟨command, hmem, hd⟩
  have hrules : t.rules = s.rules ++ command.freshRules s.options := by
    rw [(h.eq hfaithful hds hsub).2, Command.rulesAfter, hkeeps command hmem]
    rfl
  -- The rules of the first time are among those of the history.
  have hold : ∀ r ∈ command.freshRules s.options, r.className ∈ s.rules.map Rule.className := by
    intro r hr
    refine List.mem_map_of_mem ?_
    rw [hs.rules_eq hds, collected_of_keeps _ hkeeps]
    exact List.mem_flatMap.2 ⟨command, hmem, hr⟩
  rw [sheet, sheet, hrules, Sheet.ofRules, Sheet.ofRules, firstByClass_append_of_classes hold]

/-- If no two canonical texts of a history have one digest and its rules were never dropped, then
carrying out one of its commands again leaves the stylesheet as it is, and so the stylesheet for any
classes. -/
theorem stylesheet_of_repeated (hs : History options commands s)
    (hds : DigestTellsApart (commands.flatMap Command.definitions))
    (hkeeps : ∀ c ∈ commands, c.dropsRules = false) (hmem : command ∈ commands)
    (h : s.Does command answer t) :
    t.stylesheet = s.stylesheet ∧
      ∀ classNames, t.stylesheetFor classNames = s.stylesheetFor classNames := by
  have hoptions : t.options = s.options :=
    (h.faithful (hs.faithful.1 ▸ hs.faithful.2)
      fun d hd => List.mem_flatMap.2 ⟨command, hmem, hd⟩).1
  have hsheet := h.sheet_eq hs hds hkeeps hmem
  constructor
  · rw [stylesheet, stylesheet, hoptions, hsheet]
  · intro classNames
    rw [stylesheetFor, stylesheetFor, hoptions, hsheet]

/-- A definition is compiled again, after its compilation was forgotten and a rule of the same
priority was collected. -/
theorem stylesheet_of_repeated_forgotten :
    let wide : Definition := .ofEntries [("width", .text "1px"), ("color", .text "red")]
    let blue : Definition := .ofEntries [("color", .text "blue")]
    let commands : List Command := [.compile "a" wide, .clearCache, .compileAll [("b", blue)]]
    let s := ((start {}).run commands).2
    let t := (s.step (.compile "a" wide)).2
    DigestTellsApart (commands.flatMap Command.definitions) ∧
      s.rules.length = 3 ∧ t.rules.length = 5 ∧ t.stylesheet = s.stylesheet ∧
      t.stylesheetFor ["x64kc63"] = s.stylesheetFor ["x64kc63"] := by
  intro wide blue commands s t
  have hs : History {} commands s := .does (.does (.does .start (.step _)) (.step _)) (.step _)
  have hds : DigestTellsApart (commands.flatMap Command.definitions) := by
    unfold DigestTellsApart
    decide +kernel
  have hkeeps : ∀ c ∈ commands, c.dropsRules = false := by simp [commands, Command.dropsRules]
  have hmem : Command.compile "a" wide ∈ commands := by simp [commands]
  have hsame := stylesheet_of_repeated hs hds hkeeps hmem (.step _)
  exact ⟨hds, by decide +kernel, by decide +kernel, hsame.1, hsame.2 _⟩

end Session

end AtomicCss
