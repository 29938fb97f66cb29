import PropFlow.CommandLine.Run
import PropFlow.Proofs.Settings.Document
import PropFlow.Proofs.Toml

namespace PropFlow

namespace Setting

-- What a key and a text ask for: a setting of that name, and the value that the text stands for.
def asked? (command : String × String) : Option (Setting × Value) :=
  match ofName? command.1 with
  | none => none
  | some s =>
    match s.coerce command.2 with
    | .ok value => some (s, value)
    | .error _ => none

theorem coerceNamed_of_asked {command : String × String} {s : Setting} {value : Value}
    (h : asked? command = some (s, value)) :
    command.1 = s.name ∧ coerceNamed s.name command.2 = .ok value := by
  unfold asked? at h
  split at h
  · cases h
  · rename_i found hfound
    split at h
    · rename_i coerced hcoerced
      cases h
      refine ⟨(name_of_ofName? hfound).symm, ?_⟩
      simp only [coerceNamed, ofName?_name, hcoerced]
    · cases h

theorem coerceNamed_of_not_asked {command : String × String} (h : asked? command = none) :
    ∃ e, coerceNamed command.1 command.2 = .error e := by
  unfold asked? at h
  unfold coerceNamed
  split at h
  · rename_i hnone
    rw [hnone]
    exact ⟨_, rfl⟩
  · rename_i found hfound
    split at h
    · cases h
    · rename_i e he
      simp only [hfound]
      exact ⟨e, he⟩

end Setting

-- Settings with what a command asks for.
def Settings.apply (settings : Settings) (command : String × String) : Settings :=
  match Setting.asked? command with
  | some (s, value) => settings.set s value
  | none => settings

theorem Settings.Same.apply {settings other : Settings} (h : settings.Same other) (command : String × String) :
    (settings.apply command).Same (other.apply command) := by
  unfold Settings.apply
  split
  · exact h.set _ _
  · exact h

theorem Settings.Same.foldl_apply {settings other : Settings} (h : settings.Same other)
    (commands : List (String × String)) :
    (commands.foldl Settings.apply settings).Same (commands.foldl Settings.apply other) := by
  induction commands generalizing settings other with
  | nil => exact h
  | cons command rest ih => exact ih (h.apply command)

-- Each document that a sequence of commands writes is read back as the same mapping.
def DocumentFormat.Faithful (format : DocumentFormat) : Table → List (String × String) → Prop
  | _, [] => True
  | old, command :: rest =>
    match Setting.asked? command with
    | none => format.Faithful old rest
    | some (s, value) =>
      ∃ new, format.ReadsBack (SettingsFile.update old [(s.name, value)]) new ∧ format.Faithful new rest

namespace CommandLine.Session

open SettingsFile

-- The session after a command that changes a setting, and after several of them.
def change (s : Session) (command : String × String) : Outcome :=
  s.runCommand (.changeSetting command.1 command.2)

def after (s : Session) (command : String × String) : Session :=
  { s with disk := (s.change command).disk }

def afterAll (s : Session) (commands : List (String × String)) : Session :=
  commands.foldl after s

def statuses : Session → List (String × String) → List Status
  | _, [] => []
  | s, command :: rest => (s.change command).status :: statuses (s.after command) rest

def document (s : Session) : Except SettingsFailure Table :=
  SettingsFile.document s.format s.disk s.settingsFile

def load (s : Session) : Except SettingsFailure Settings :=
  SettingsFile.load s.format s.disk s.settingsFile

theorem change_eq (s : Session) (command : String × String) : s.change command = s.runSet command.1 command.2 :=
  rfl

section Step

variable {s : Session} {command : String × String} {setting : Setting} {value : Value}

-- A command that asks for nothing is refused.
theorem change_of_not_asked (h : Setting.asked? command = none) :
    (s.change command).status = .exit 1 ∧ s.after command = s := by
  obtain ⟨e, he⟩ := Setting.coerceNamed_of_not_asked h
  have hrefuse : ∃ events, s.change command = s.refuse events := by
    rw [change_eq, runSet, he]
    cases e <;> exact ⟨_, rfl⟩
  obtain ⟨events, hevents⟩ := hrefuse
  unfold after
  rw [hevents]
  exact ⟨rfl, rfl⟩

theorem change_of_saved {disk : Disk} (h : Setting.asked? command = some (setting, value))
    (hsave : save s.format s.disk s.settingsFile [(setting.name, value)] = .ok disk) :
    (s.change command).status = .exit 0 ∧ s.after command = { s with disk := disk } := by
  obtain ⟨hname, hcoerced⟩ := Setting.coerceNamed_of_asked h
  have hdone : s.change command =
      { s with disk := disk }.done [.out ("Set " ++ setting.name ++ " = " ++ value.display)] := by
    rw [change_eq, hname, runSet]
    simp only [hcoerced, hsave]
  unfold after
  rw [hdone]
  exact ⟨rfl, rfl⟩

theorem change_of_failed {failure : SettingsFailure} (h : Setting.asked? command = some (setting, value))
    (hsave : save s.format s.disk s.settingsFile [(setting.name, value)] = .error failure) :
    (s.change command).status = .aborted (.settings failure) ∧ s.after command = s := by
  obtain ⟨hname, hcoerced⟩ := Setting.coerceNamed_of_asked h
  have habort : s.change command = s.abort [] (.settings failure) := by
    rw [change_eq, hname, runSet]
    simp only [hcoerced, hsave]
  unfold after
  rw [habort]
  exact ⟨rfl, rfl⟩

theorem after_of_asked (hadmits : s.disk.Admits s.settingsFile) {old new : Table} (hold : s.document = .ok old)
    (h : Setting.asked? command = some (setting, value))
    (hback : s.format.ReadsBack (update old [(setting.name, value)]) new) :
    (s.change command).status = .exit 0 ∧ (s.after command).document = .ok new ∧
      (s.after command).disk.Admits s.settingsFile := by
  have hvalues : ∀ entry ∈ [(setting.name, value)], (Setting.ofName? entry.1).isSome = true := by
    intro entry hentry
    rw [List.mem_singleton.mp hentry, Setting.ofName?_name]
    rfl
  obtain ⟨saved, hsaved, hnew, hagain⟩ := document_save hadmits hvalues hold hback
  obtain ⟨hstatus, hafter⟩ := change_of_saved h hsaved
  rw [hafter]
  exact ⟨hstatus, hnew, hagain⟩

-- A file that is no text is neither read nor written.
theorem change_of_error {failure : SettingsFailure} (hfailure : s.document = .error failure) :
    (s.change command).status =
        (if (Setting.asked? command).isSome then .aborted (.settings failure) else .exit 1) ∧
      s.after command = s := by
  cases hasked : Setting.asked? command with
  | none => exact change_of_not_asked hasked
  | some found =>
      obtain ⟨setting, value⟩ := found
      have hsave : save s.format s.disk s.settingsFile [(setting.name, value)] = .error failure := by
        rw [document] at hfailure
        simp only [save, List.find?_singleton, Setting.ofName?_name, Option.isNone_some, hfailure]
        rfl
      exact change_of_failed hasked hsave

end Step

section Run

variable {s : Session} {commands : List (String × String)}

theorem afterAll_append (s : Session) (earlier : List (String × String)) (command : String × String) :
    s.afterAll (earlier ++ [command]) = (s.afterAll earlier).after command := by
  rw [afterAll, List.foldl_append]
  rfl

theorem afterAll_of_faithful (hadmits : s.disk.Admits s.settingsFile)
    (hkeyed : ∀ text t, s.format.read text = some t → t.Keyed) {old : Table} (hold : s.document = .ok old)
    (hfaithful : s.format.Faithful old commands) :
    s.statuses commands = (commands.map fun command => .exit (if (Setting.asked? command).isSome then 0 else 1)) ∧
      ∃ new, (s.afterAll commands).document = .ok new ∧ Kept old new ∧
        (settingsOf new).Same (commands.foldl Settings.apply (settingsOf old)) := by
  induction commands generalizing s old with
  | nil => exact ⟨rfl, old, hold, .refl old, .refl _⟩
  | cons command rest ih =>
      rw [DocumentFormat.Faithful] at hfaithful
      cases hasked : Setting.asked? command with
      | none =>
          rw [hasked] at hfaithful
          obtain ⟨hstatus, hafter⟩ := @change_of_not_asked s command hasked
          obtain ⟨hstatuses, new, hnew, hkept, hsame⟩ := ih hadmits hkeyed hold hfaithful
          have hall : s.afterAll (command :: rest) = s.afterAll rest := by
            rw [afterAll, List.foldl_cons, hafter]
            rfl
          have hsettings : (settingsOf old).apply command = settingsOf old := by
            rw [Settings.apply, hasked]
          refine ⟨?_, new, hall ▸ hnew, hkept, ?_⟩
          · rw [statuses, hstatus, hafter, hstatuses, List.map_cons, hasked]
            rfl
          · rw [List.foldl_cons, hsettings]
            exact hsame
      | some found =>
          obtain ⟨setting, value⟩ := found
          rw [hasked] at hfaithful
          obtain ⟨mid, hback, hfaithful⟩ := hfaithful
          obtain ⟨hstatus, hmid, hagain⟩ := after_of_asked hadmits hold hasked hback
          obtain ⟨hstatuses, new, hnew, hkept, hsame⟩ := @ih (s.after command) hagain hkeyed mid hmid hfaithful
          have hstep : (settingsOf mid).Same ((settingsOf old).apply command) := by
            rw [Settings.apply, hasked]
            exact settingsOf_of_same_update (keyed_document hkeyed hold) (keyed_document hkeyed hmid) hback.2
          refine ⟨?_, new, hnew, (kept_of_same_update hback.2).trans hkept, ?_⟩
          · rw [statuses, hstatus, hstatuses, List.map_cons, hasked]
            rfl
          · rw [List.foldl_cons]
            exact hsame.trans (hstep.foldl_apply rest)

theorem afterAll_of_error {failure : SettingsFailure} (hfailure : s.document = .error failure) :
    s.statuses commands = (commands.map fun command =>
        if (Setting.asked? command).isSome then .aborted (.settings failure) else .exit 1) ∧
      s.afterAll commands = s := by
  induction commands with
  | nil => exact ⟨rfl, rfl⟩
  | cons command rest ih =>
      obtain ⟨hstatus, hafter⟩ := @change_of_error s command failure hfailure
      obtain ⟨hstatuses, hall⟩ := ih
      constructor
      · rw [statuses, hstatus, hafter, hstatuses, List.map_cons]
      · rw [afterAll, List.foldl_cons, hafter]
        exact hall

end Run

-- Setting after setting: what is loaded in the end is what was loaded at first with the values that were
-- asked for, in order, and the rest of the document is still there. This takes a file that is text; any
-- other file stays as it is and is never loaded.
theorem afterAll_overlays (s : Session) (commands : List (String × String))
    (hadmits : s.disk.Admits s.settingsFile) (hkeyed : ∀ text t, s.format.read text = some t → t.Keyed) :
    (∀ earlier command, Setting.asked? command = none →
      (s.afterAll (earlier ++ [command])).disk = (s.afterAll earlier).disk) ∧
    (∀ old, s.document = .ok old → s.format.Faithful old commands →
      s.statuses commands = (commands.map fun command => .exit (if (Setting.asked? command).isSome then 0 else 1)) ∧
      ∃ first last new, s.load = .ok first ∧ (s.afterAll commands).load = .ok last ∧
        last.Same (commands.foldl Settings.apply first) ∧
        (s.afterAll commands).document = .ok new ∧ Kept old new) ∧
    ∀ failure, s.document = .error failure →
      s.load = .error failure ∧ (s.afterAll commands).load = .error failure ∧
        (s.afterAll commands).disk = s.disk ∧
        s.statuses commands = (commands.map fun command =>
          if (Setting.asked? command).isSome then .aborted (.settings failure) else .exit 1) := by
  have hload : ∀ session : Session, session.load = session.document.map settingsOf := fun _ => rfl
  refine ⟨?_, ?_, ?_⟩
  · intro earlier command hasked
    rw [afterAll_append, (change_of_not_asked hasked).2]
  · intro old hold hfaithful
    obtain ⟨hstatuses, new, hnew, hkept, hsame⟩ := afterAll_of_faithful hadmits hkeyed hold hfaithful
    refine ⟨hstatuses, settingsOf old, settingsOf new, new, ?_, ?_, hsame, hnew, hkept⟩
    · rw [hload, hold]
      rfl
    · rw [hload, hnew]
      rfl
  · intro failure hfailure
    obtain ⟨hstatuses, hall⟩ := @afterAll_of_error s commands failure hfailure
    have herror : s.load = .error failure := by
      rw [hload, hfailure]
      rfl
    exact ⟨herror, by rw [hall, herror], by rw [hall], hstatuses⟩

namespace Dotfile

-- A session with a settings file in a home directory.
def session (bytes : List UInt8) : Session where
  grammar := fun _ _ => default
  format := Toml.format
  settingsFile := Path.absolute ["home", "config.toml"]
  disk := ⟨.dir .full [("home", .dir .full [("config.toml", .file bytes)])], [], []⟩

theorem admits (bytes : List UInt8) : (session bytes).disk.Admits (session bytes).settingsFile := by
  change (session bytes).disk.Admits (.absolute ["home", "config.toml"])
  have hparent : (session bytes).disk.isDir (Path.absolute ["home", "config.toml"]).parent = .ok true := by
    rw [Disk.isDir, Disk.stat, if_neg (by decide +kernel)]
    rfl
  have hwrite : (session bytes).disk.write (.absolute ["home", "config.toml"]) [] = .ok (session []).disk :=
    Disk.write_eq_ok_iff.mpr ⟨by decide +kernel, ["home", "config.toml"], rfl, rfl⟩
  refine ⟨List.cons_ne_nil _ _, _, _, Disk.makeDir_of_isDir hparent, hwrite, ?_⟩
  rw [Disk.isFile, if_neg (by decide +kernel), Disk.stat, if_neg (by decide +kernel)]
  rfl

-- The second and the third ask for nothing.
def commands : List (String × String) :=
  [("max_trace_lines", "1_0"), ("hue", "3"), ("show_trace", "maybe"), ("show_trace", " ON ")]

-- A document with an entry that is no setting and with another part, and what it becomes.
def text : String :=
  "[output]\nhue = 2\n[edit]\ntab = 4\n"

def old : Table :=
  [("output", .table [("hue", .int 2)]), ("edit", .table [("tab", .int 4)])]

def limitedText : String :=
  "[output]\nhue = 2\nmax_trace_lines = 10\n\n[edit]\ntab = 4\n"

def limited : Table :=
  [("output", .table [("hue", .int 2), ("max_trace_lines", .int 10)]),
    ("edit", .table [("tab", .int 4)])]

def tracedText : String :=
  "[output]\nhue = 2\nmax_trace_lines = 10\nshow_trace = true\n\n[edit]\ntab = 4\n"

def traced : Table :=
  [("output", .table [("hue", .int 2), ("max_trace_lines", .int 10), ("show_trace", .bool true)]),
    ("edit", .table [("tab", .int 4)])]

theorem document_text : (session (Text.Utf8.encode text)).document = .ok old := by
  have hread : (session (Text.Utf8.encode text)).disk.read (session (Text.Utf8.encode text)).settingsFile =
      .ok (Text.Utf8.encode text) := rfl
  have hdocument : Toml.format.read (String.ofList (Text.unifyNewlines text.toList)) = some old := rfl
  unfold document SettingsFile.document
  rw [Disk.isPresent_of_read hread]
  simp only [hread, Text.Utf8.decode_encode]
  exact congrArg (fun found => Except.ok (found.getD [])) hdocument

theorem readsBack_limited : Toml.format.ReadsBack (update old [(Setting.maxTraceLines.name, .int 10)]) limited := by
  have hwrite : Toml.format.write (update old [(Setting.maxTraceLines.name, .int 10)]) = limitedText := by
    decide +kernel
  have hread : Toml.format.read (String.ofList (Text.unifyNewlines limitedText.toList)) = some limited := rfl
  rw [DocumentFormat.ReadsBack, hwrite, hread]
  exact ⟨rfl, rfl⟩

theorem readsBack_traced : Toml.format.ReadsBack (update limited [(Setting.showTrace.name, .bool true)]) traced := by
  have hwrite : Toml.format.write (update limited [(Setting.showTrace.name, .bool true)]) = tracedText := by
    decide +kernel
  have hread : Toml.format.read (String.ofList (Text.unifyNewlines tracedText.toList)) = some traced := rfl
  rw [DocumentFormat.ReadsBack, hwrite, hread]
  exact ⟨rfl, rfl⟩

theorem faithful : Toml.format.Faithful old commands := by
  have hlimit : Setting.asked? ("max_trace_lines", "1_0") = some (.maxTraceLines, .int 10) := rfl
  have hhue : Setting.asked? ("hue", "3") = none := rfl
  have hmaybe : Setting.asked? ("show_trace", "maybe") = none := rfl
  have htrace : Setting.asked? ("show_trace", " ON ") = some (.showTrace, .bool true) := rfl
  simp only [commands, DocumentFormat.Faithful, hlimit, hhue, hmaybe, htrace]
  exact ⟨limited, readsBack_limited, traced, readsBack_traced, trivial⟩

end Dotfile

theorem afterAll_overlays_dotfile :
    let s := Dotfile.session (Text.Utf8.encode Dotfile.text)
    s.disk.Admits s.settingsFile ∧ (∀ text t, Toml.format.read text = some t → t.Keyed) ∧
      s.document = .ok Dotfile.old ∧ s.format.Faithful Dotfile.old Dotfile.commands ∧
      s.statuses Dotfile.commands = [.exit 0, .exit 1, .exit 1, .exit 0] ∧
      ∃ last new, (s.afterAll Dotfile.commands).load = .ok last ∧
        last.Same ⟨.str "table", .bool true, .int 10⟩ ∧
        (s.afterAll Dotfile.commands).document = .ok new ∧ Kept Dotfile.old new := by
  have hadmits := Dotfile.admits (Text.Utf8.encode Dotfile.text)
  have hkeyed : ∀ text t, Toml.format.read text = some t → t.Keyed := fun _ _ => Toml.keyed_read
  obtain ⟨-, htext, -⟩ := afterAll_overlays _ Dotfile.commands hadmits hkeyed
  obtain ⟨hstatuses, first, last, new, hfirst, hlast, hsame, hnew, hkept⟩ :=
    htext _ Dotfile.document_text Dotfile.faithful
  have hload : (Dotfile.session (Text.Utf8.encode Dotfile.text)).load = .ok (settingsOf Dotfile.old) := by
    rw [load, SettingsFile.load]
    exact congrArg (Except.map settingsOf) Dotfile.document_text
  obtain rfl := Except.ok.inj (hfirst.symm.trans hload)
  exact ⟨hadmits, hkeyed, Dotfile.document_text, Dotfile.faithful, hstatuses, last, new, hlast, hsame, hnew, hkept⟩

-- With a byte in the file that begins no character nothing is loaded, and nothing can be set.
theorem load_fails_undecodable :
    let s := Dotfile.session [0xFF]
    let failure := SettingsFailure.undecodable ⟨0, 1, 0xFF, .invalidStart⟩
    s.load = .error failure ∧ s.statuses [("format", "json")] = [.aborted (.settings failure)] ∧
      (s.afterAll [("format", "json")]).load = .error failure :=
  ⟨rfl, rfl, rfl⟩

end CommandLine.Session

end PropFlow
