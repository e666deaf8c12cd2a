import BasicCompiler.Command.Compile
import Mathlib.Data.List.Basic
import Mathlib.Data.Set.List

/-!
# The output file of the compiler command

What the compiler command does to the files. `Directory.HasFile` says which file a path names,
without following it step by step (`Directory.find_eq_file_iff`), and `Compiles` says when the
command has something to write. Read `writes_only_result` first: the process succeeds exactly if
there is something to write and no directory is in the way; then it changes the output file and
nothing else, and otherwise it changes nothing at all.
-/

namespace BasicCompiler.Command

/-! ## What a path names -/

/-- The name is not one of those that lead nowhere else or up. -/
def IsProperName (name : String) : Prop :=
  name ≠ "" ∧ name ≠ "." ∧ name ≠ ".."

/-- The names lead from the directory at a place to a file with the content. A name that is empty or
a single point stays in the directory, two points lead to the one above it or stay in the root, and
any other name leads to an entry of the directory, which has to be the file for the last name and a
directory for the others. -/
inductive Directory.LeadsToFile (directory : Directory) (content : ByteArray) :
    Place → List String → Prop where
  | stay {place : Place} {name : String} {names : List String} (h : name = "" ∨ name = ".")
      (more : LeadsToFile directory content place names) :
      LeadsToFile directory content place (name :: names)
  | top {names : List String} (more : LeadsToFile directory content [] names) :
      LeadsToFile directory content [] (".." :: names)
  | up {place : Place} {last : ByteArray} {names : List String}
      (more : LeadsToFile directory content place names) :
      LeadsToFile directory content (place ++ [last]) (".." :: names)
  | enter {place : Place} {name : String} {names : List String} (h : IsProperName name)
      (entry : directory.lookup? (place ++ [name.toUTF8]) = some .directory)
      (more : LeadsToFile directory content (place ++ [name.toUTF8]) names) :
      LeadsToFile directory content place (name :: names)
  | file {place : Place} {name : String} (h : IsProperName name)
      (entry : directory.lookup? (place ++ [name.toUTF8]) = some (.file content)) :
      LeadsToFile directory content place [name]

/-- The path names a file with the content, in the working directory or outside of it: it is not too
long, and the names between its slashes lead to the file, from the root if the path begins with a
slash and otherwise from the working directory. -/
structure Directory.HasFile (directory : Directory) (path : String) (content : ByteArray) :
    Prop where
  bytes_le : path.utf8ByteSize ≤ maxPathBytes
  leads : directory.LeadsToFile content
    (if path.toList.head? = some '/' then [] else directory.home)
    ((path.toList.splitOn '/').map String.ofList)

/-- The names of a path are what stands between its slashes. -/
theorem pathNames_eq_splitOn (cs : List Char) : pathNames cs = cs.splitOn '/' := by
  induction cs with
  | nil => rfl
  | cons c cs ih =>
    rw [pathNames, ih, List.splitOn_cons_eq_if_modifyHead]
    by_cases hslash : c = '/'
    · simp [hslash]
    · obtain ⟨name, names, hnames⟩ := List.exists_cons_of_ne_nil (List.splitOn_ne_nil '/' cs)
      simp [hslash, hnames]

namespace Directory

variable {directory : Directory} {content : ByteArray}

/-- Following names finds the file that they lead to. -/
theorem LeadsToFile.follow_eq {place : Place} {names : List String}
    (h : directory.LeadsToFile content place names) :
    directory.follow place names = .file content := by
  induction h with
  | stay h _ ih => rw [follow, if_pos h, ih]
  | top _ ih => simpa [follow] using ih
  | up _ ih => simpa [follow] using ih
  | enter h entry _ ih =>
    rw [follow, if_neg (not_or.mpr ⟨h.1, h.2.1⟩), if_neg h.2.2, entry]
    exact ih
  | file h entry =>
    rw [follow, if_neg (not_or.mpr ⟨h.1, h.2.1⟩), if_neg h.2.2, entry]
    rfl

/-- A file that is found by following names is the one that they lead to. -/
theorem leadsToFile_of_follow {place : Place} {names : List String}
    (h : directory.follow place names = .file content) :
    directory.LeadsToFile content place names := by
  induction names generalizing place with
  | nil => simp [follow] at h
  | cons name names ih =>
    rw [follow] at h
    split at h
    · next hstay => exact .stay hstay (ih h)
    · next hstay =>
      rw [not_or] at hstay
      split at h
      · next hup =>
        subst hup
        have hmore := ih h
        rcases List.eq_nil_or_concat' place with rfl | ⟨above, last, rfl⟩
        · exact .top hmore
        · rw [List.dropLast_concat] at hmore
          exact .up hmore
      · next hup =>
        have hname : IsProperName name := ⟨hstay.1, hstay.2, hup⟩
        split at h
        · cases h
        · next entry => exact .enter hname entry (ih h)
        · next entry =>
          split at h
          · next hlast =>
            subst hlast
            cases h
            exact .file hname entry
          · cases h

/-- A path is found to be a file exactly if it names that file. -/
theorem find_eq_file_iff {path : String} :
    directory.find path = .file content ↔ directory.HasFile path content := by
  rw [find]
  split
  · next hlong =>
    exact iff_of_false (by simp) fun h => absurd h.bytes_le (Nat.not_le_of_lt hlong)
  next hshort =>
  split
  · next hempty =>
    refine iff_of_false (by simp) fun h => ?_
    have hfound := h.leads.follow_eq
    rw [hempty] at hfound
    simp [follow] at hfound
  next c cs htext =>
  have hstart : (if c = '/' then [] else directory.home) =
      if path.toList.head? = some '/' then [] else directory.home := by
    simp [htext]
  rw [pathNames_eq_splitOn, hstart, ← htext]
  exact ⟨fun h => ⟨Nat.le_of_not_lt hshort, leadsToFile_of_follow h⟩, fun h => h.leads.follow_eq⟩

end Directory

/-! ## The source and the result -/

/-- Bytes are read as a text exactly if they are that text in UTF-8. -/
theorem fromUTF8?_eq_some_iff {bytes : ByteArray} {text : String} :
    String.fromUTF8? bytes = some text ↔ bytes = text.toUTF8 := by
  rw [String.fromUTF8?]
  split
  · rw [Option.some.injEq, ← String.toByteArray_inj]
    rfl
  · next hinvalid =>
    refine iff_of_false (by simp) ?_
    rintro rfl
    exact hinvalid text.isValidUTF8

/-- A source is what a file holds in UTF-8. -/
theorem Found.source_eq_ok_iff {found : Found} {source : String} :
    found.source = .ok source ↔ found = .file source.toUTF8 := by
  cases found with
  | missing | directory => simp [Found.source]
  | file content =>
    rw [Found.source, Found.file.injEq, ← fromUTF8?_eq_some_iff]
    cases String.fromUTF8? content <;> simp

/-- A file can be written unless a directory is in its place, and nothing else is changed then. -/
theorem Directory.writeFile_eq_ok_iff {directory written : Directory} {name : String}
    {content : ByteArray} :
    directory.writeFile name content = .ok written ↔
      directory.lookup? (directory.place [name]) ≠ some .directory ∧
        written = directory.set (directory.place [name]) (.file content) := by
  rw [Directory.writeFile]
  split
  · next hdirectory => simp [hdirectory]
  · next hfree =>
    rw [Except.ok.injEq, and_iff_right fun hdirectory => hfree hdirectory]
    exact eq_comm

/-! ## Words -/

/-- The bytes are those of a text. -/
def IsText (bytes : ByteArray) : Prop :=
  ∃ text : String, text.toUTF8 = bytes

/-- Words that are all texts are the bytes of some texts. -/
theorem forall_isText_iff {words : List ByteArray} :
    (∀ word ∈ words, IsText word) ↔ ∃ texts : List String, texts.map String.toUTF8 = words :=
  (Set.ext_iff.mp (Set.range_list_map String.toUTF8) words).symm

/-- Words are read as texts exactly if they are the bytes of these texts. -/
theorem mapM_fromUTF8?_eq_some_iff {words : List ByteArray} {texts : List String} :
    words.mapM String.fromUTF8? = some texts ↔ texts.map String.toUTF8 = words := by
  induction words generalizing texts with
  | nil => simp
  | cons word words ih =>
    rw [List.mapM_cons, List.map_eq_cons_iff]
    simp only [Option.bind_eq_bind, Option.bind_eq_some_iff, fromUTF8?_eq_some_iff, ih]
    grind

/-- Words cannot be read as texts exactly if one of them is no text. -/
theorem mapM_fromUTF8?_eq_none_iff {words : List ByteArray} :
    words.mapM String.fromUTF8? = none ↔ ∃ word ∈ words, ¬ IsText word := by
  rw [Option.eq_none_iff_forall_ne_some]
  simp only [ne_eq, mapM_fromUTF8?_eq_some_iff, ← not_exists, ← forall_isText_iff]
  simp

namespace CompileCommand

/-! ## The result -/

/-- The path names a file that holds a source, and the source is compiled to the result. -/
def Translates (directory : Directory) (path result : String) : Prop :=
  ∃ source : String, directory.HasFile path source.toUTF8 ∧ compile source = .ok result

/-- There are exactly two words, the name of the program and a path, and the file that the path
names is compiled to the result. -/
def Compiles (directory : Directory) (words : List ByteArray) (result : String) : Prop :=
  ∃ program path : String, words = [program.toUTF8, path.toUTF8] ∧ Translates directory path result

/-- A result is to be written for a path exactly if there is one. -/
theorem exists_plan_eq_write_iff {directory : Directory} {program path result : String} :
    (∃ messages, plan program path (directory.find path) = .write messages result) ↔
      Translates directory path result := by
  simp only [Translates, ← Directory.find_eq_file_iff, ← Found.source_eq_ok_iff]
  unfold plan
  constructor
  · rintro ⟨messages, hplan⟩
    split at hplan
    · cases hplan
    · cases hplan
    · next source hsource =>
      split at hplan
      · cases hplan
      · next hresult =>
        cases hplan
        exact ⟨source, hsource, hresult⟩
  · rintro ⟨source, hsource, hresult⟩
    rw [hsource]
    simp [hresult]

/-! ## Endings -/

/-- The three ways in which the process can end. It is aborted because a word is no text, or it
fails, and leaves the directory as it was; or it succeeds with a result, which is then in the output
file. -/
inductive Ends (directory : Directory) (words : List ByteArray) : Exit → Prop where
  | aborted (h : ∃ word ∈ words, ¬ IsText word) : Ends directory words (.aborted directory)
  | failed (texts : ∀ word ∈ words, IsText word) (messages : String) :
      Ends directory words (.ended ⟨1, messages, directory⟩)
  | written (result messages : String) (compiles : Compiles directory words result)
      (free : directory.lookup? (directory.place [outputName]) ≠ some .directory) :
      Ends directory words (.ended ⟨0, messages,
        directory.set (directory.place [outputName]) (.file result.toUTF8)⟩)

variable (directory : Directory)

/-- A command that is called with texts fails or succeeds. -/
theorem ends_run (unnamed : String) (texts : List String) :
    let call := Call.ofTexts unnamed texts
    Ends directory (texts.map String.toUTF8)
      (.ended (run call.program call.arguments directory)) := by
  have htexts : ∀ word ∈ texts.map String.toUTF8, IsText word := forall_isText_iff.mpr ⟨texts, rfl⟩
  match texts with
  | [] | [_] | _ :: _ :: _ :: _ => exact .failed htexts _
  | [program, path] =>
    show Ends directory _ (.ended ((plan program path (directory.find path)).execute directory))
    cases hplan : plan program path (directory.find path) with
    | fail messages => exact .failed htexts messages
    | write messages result =>
      have htranslates : Translates directory path result :=
        exists_plan_eq_write_iff.mp ⟨messages, hplan⟩
      rw [Plan.execute]
      split
      · exact .failed htexts _
      · next written hwritten =>
        obtain ⟨hfree, rfl⟩ := Directory.writeFile_eq_ok_iff.mp hwritten
        exact .written result _ ⟨program, path, rfl, htranslates⟩ hfree

variable (words : List ByteArray)

/-- The process ends in one of the three ways. -/
theorem ends_call : Ends directory words (call words directory) := by
  rw [call, Call.ofWords?]
  cases hwords : words.mapM String.fromUTF8? with
  | none => exact .aborted (mapM_fromUTF8?_eq_none_iff.mp hwords)
  | some texts =>
    rw [← mapM_fromUTF8?_eq_some_iff.mp hwords]
    exact ends_run directory _ texts

variable {directory words}

/-- With a result and no directory in the way the process succeeds. -/
theorem status_call {result : String} (h : Compiles directory words result)
    (free : directory.lookup? (directory.place [outputName]) ≠ some .directory) :
    (call words directory).status = 0 := by
  obtain ⟨program, path, rfl, htranslates⟩ := h
  obtain ⟨messages, hplan⟩ : ∃ messages,
      plan program path (directory.find path) = .write messages result :=
    exists_plan_eq_write_iff.mpr htranslates
  have hwords : [program.toUTF8, path.toUTF8].mapM String.fromUTF8? = some [program, path] :=
    mapM_fromUTF8?_eq_some_iff.mpr rfl
  have hwritten : directory.writeFile outputName result.toUTF8 = .ok _ :=
    Directory.writeFile_eq_ok_iff.mpr ⟨free, rfl⟩
  rw [call, Call.ofWords?, hwords]
  show ((plan program path (directory.find path)).execute directory).status = 0
  rw [hplan, Plan.execute, hwritten]

/-- The process succeeds exactly if its only argument names a file that holds a source, the source
is compiled, and no directory is in the place of the output file. Then the output file holds the
result and everything else is as it was. Otherwise everything is as it was, and the status is one.
Arguments are texts: with a word that is no text the process is aborted before the command has any
arguments, with a status of its own and without touching anything either. -/
theorem writes_only_result (words : List ByteArray) (directory : Directory) :
    let exit := call words directory
    let output := directory.home ++ ["out.c".toUTF8]
    (exit.status = 0 ↔
        ∃ result, Compiles directory words result ∧ directory.lookup? output ≠ some .directory) ∧
      (exit.status = 0 → ∃ result, Compiles directory words result ∧
        exit.directory.home = directory.home ∧
        exit.directory.lookup? output = some (.file result.toUTF8) ∧
        ∀ place ≠ output, exit.directory.lookup? place = directory.lookup? place) ∧
      (exit.status ≠ 0 → exit.directory = directory ∧
        ((∀ word ∈ words, IsText word) → exit.status = 1) ∧
        ((∃ word ∈ words, ¬ IsText word) → exit.status = 101)) := by
  intro exit output
  have hsucceeds : (∃ result, Compiles directory words result ∧
      directory.lookup? output ≠ some .directory) → exit.status = 0 := by
    rintro ⟨result, hcompiles, hfree⟩
    exact status_call hcompiles hfree
  have hends : Ends directory words exit := ends_call directory words
  clear_value exit
  cases hends with
  | aborted hwords =>
    have hstatus : Exit.status (.aborted directory) ≠ 0 := show abortedStatus ≠ 0 by decide
    exact ⟨iff_of_false hstatus (mt hsucceeds hstatus), fun h => absurd h hstatus,
      fun _ => ⟨rfl, fun htexts => absurd hwords (by simpa using htexts), fun _ => rfl⟩⟩
  | failed htexts messages =>
    have hstatus : Exit.status (.ended ⟨1, messages, directory⟩) ≠ 0 := Nat.one_ne_zero
    exact ⟨iff_of_false hstatus (mt hsucceeds hstatus), fun h => absurd h hstatus,
      fun _ => ⟨rfl, fun _ => rfl, fun ⟨word, hword, hno⟩ => absurd (htexts word hword) hno⟩⟩
  | written result messages hcompiles hfree =>
    exact ⟨iff_of_true rfl ⟨result, hcompiles, hfree⟩,
      fun _ => ⟨result, hcompiles, Directory.home_set .., Directory.lookup?_set_same ..,
        fun place hplace => Directory.lookup?_set_of_ne directory _ hplace⟩,
      fun h => absurd rfl h⟩

/-- A source in the output file itself is replaced by its translation, also when its path leads out
of the working directory and back. -/
example :
    let home : Place := ["work".toUTF8]
    let around : Directory := ⟨home, fun place => if place = home then some .directory else none⟩
    let directory := around.makeFile ["out.c"] "PRINT 1\n".toUTF8
    let exit := call ["tinybasc".toUTF8, "../work/out.c".toUTF8] directory
    exit.status = 0 ∧ (exit.directory.content? "out.c").bind String.fromUTF8? =
      some ("#include <stdio.h>\nint main(void)\x7b\n" ++ "printf(\"%.2f\\n\", (float)(1));\n" ++
        "return 0;\n\x7d\n") := by
  decide +kernel

end CompileCommand

end BasicCompiler.Command
