import Checklist.Proofs.Effects
import Checklist.Proofs.Highlights
import Checklist.Proofs.Replacement

namespace Checklist
open Machine Text

namespace FileTree

variable {tree tree' : FileTree} {directory location : List Text} {path : Path} {t new : Text}

section Writing

/-- A write that succeeds puts the text where its path leads, in place of a file or of nothing. -/
theorem write_eq_ok (h : tree.write directory path new = .ok tree') :
    ∃ location, location ≠ [] ∧ tree.entry? location ≠ some .directory ∧
      tree' = tree.set location (.file new.bytes) := by
  cases hplace : tree.place directory path with
  | error error => simp [write, hplace, bind, Except.bind] at h
  | ok location =>
    simp only [write, hplace, bind, Except.bind] at h
    split at h
    · cases h
    · rename_i hentry
      split at h
      · cases h
      · cases h
        refine ⟨location, ?_, hentry, rfl⟩
        rintro rfl
        exact hentry rfl

theorem follow_cons_of_directory (h : tree.entry? location = some .directory) (step : Text)
    (rest : List Text) :
    tree.follow location (step :: rest) = tree.follow (stepFrom location step) rest := by
  simp only [follow, h]

theorem directory_of_follow_cons {step : Text} {rest last : List Text}
    (h : tree.follow location (step :: rest) = .ok last) :
    tree.entry? location = some .directory := by
  simp only [follow] at h
  split at h
  · cases h
  · cases h
  · assumption

/-- A path that leads somewhere still leads there once a file has been written, because its steps
are taken from directories and a write makes none and removes none. -/
theorem follow_set_of_ok {written last steps : List Text} (hroot : written ≠ [])
    (hentry : tree.entry? written ≠ some .directory) (content : ByteArray)
    (h : tree.follow location steps = .ok last) :
    (tree.set written (.file content)).follow location steps = .ok last := by
  induction steps generalizing location with
  | nil =>
    rw [follow] at h ⊢
    exact h
  | cons step rest ih =>
    have hbefore := directory_of_follow_cons h
    have hafter : FileTree.entry? (tree.set written (.file content)) location =
        some .directory := by
      rw [tree.entry?_set hroot, if_neg, hbefore]
      -- the file was not written over a directory
      rintro rfl
      exact hentry hbefore
    rw [follow_cons_of_directory hbefore] at h
    rw [follow_cons_of_directory hafter]
    exact ih h

/-- A write to another file leaves a file as it is, and a write to the file gives it the new
text. -/
theorem Holds.write_eq_ok {other : Path} (h : tree.Holds directory path location t)
    (hwrite : tree.write directory other new = .ok tree') :
    tree'.Holds directory path location t ∨ tree'.Holds directory path location new := by
  obtain ⟨written, hroot, hentry, rfl⟩ := FileTree.write_eq_ok hwrite
  have hset := tree.entry?_set hroot (.file new.bytes) location
  have hplace : FileTree.place (tree.set written (.file new.bytes)) directory path =
      .ok location := by
    have hbefore := h.place
    unfold FileTree.place at hbefore ⊢
    split at hbefore
    · cases hbefore
    · rename_i hpath
      rw [if_neg hpath]
      exact follow_set_of_ok hroot hentry _ hbefore
  by_cases hl : location = written
  · rw [if_pos hl] at hset
    exact .inr ⟨hplace, hset, h.no_slash⟩
  · rw [if_neg hl, h.entry] at hset
    exact .inl ⟨hplace, hset, h.no_slash⟩

end Writing

end FileTree

namespace Document

/-- What every edit keeps: the file of the document and the index of its text. An edit that changes
anything leaves the document modified. -/
structure Edit (doc doc' : Document) : Prop where
  filename : doc'.filename = doc.filename
  consistent : doc.Consistent → doc'.Consistent
  modified : doc' = doc ∨ doc'.modified = true

section Edits

variable {doc doc' : Document} {set : TokenSet}

theorem Edit.refl (doc : Document) : Edit doc doc :=
  ⟨rfl, id, .inl rfl⟩

theorem Edit.trans {last : Document} (h : Edit doc doc') (hnext : Edit doc' last) :
    Edit doc last where
  filename := hnext.filename.trans h.filename
  consistent := hnext.consistent ∘ h.consistent
  modified := by
    rcases hnext.modified with rfl | hlast
    · exact h.modified
    · exact .inr hlast

/-- An edit that leaves a document unmodified has changed nothing. -/
theorem Edit.eq_of_unmodified (h : Edit doc doc') (hclean : doc'.modified = false) :
    doc' = doc := by
  rcases h.modified with he | hmodified
  · exact he
  · rw [hclean] at hmodified
    cases hmodified

theorem edit_replaceLine (doc : Document) (i : Nat) (new : Text) :
    Edit doc (doc.replaceLine i new).2 := by
  refine ⟨filename_replaceLine doc i new, ?_, ?_⟩
  · intro h
    unfold replaceLine
    split
    · exact h
    · rfl
  · unfold replaceLine
    split
    · exact .inl rfl
    · exact .inr rfl

theorem edit_replaceLines (doc : Document) (edits : List (Nat × Text)) :
    Edit doc (doc.replaceLines edits).2 := by
  induction edits generalizing doc with
  | nil => exact Edit.refl doc
  | cons edit rest ih =>
    have hfirst := edit_replaceLine doc edit.1 edit.2
    rw [replaceLines]
    split
    · rename_i next hnext
      rw [hnext] at hfirst
      exact hfirst.trans (ih next)
    · exact hfirst

theorem edit_advanceLines (doc : Document) (set : TokenSet) (lines : List Nat) :
    Edit doc (doc.advanceLines set lines).2 := by
  unfold advanceLines
  split
  · exact Edit.refl doc
  · rename_i edits _
    have hedits := edit_replaceLines doc edits.reverse
    split
    · rename_i next hnext
      rw [hnext] at hedits
      exact hedits
    · rename_i next hnext
      rw [hnext] at hedits
      exact hedits

theorem replaceLine_error {i : Nat} {new : Text} {error : OutOfRange}
    (h : doc.replaceLine i new = (.error error, doc')) : doc' = doc := by
  unfold replaceLine at h
  split at h
  · exact (Prod.ext_iff.mp h).2.symm
  · cases h

theorem replaceLine_ok {i : Nat} {new : Text} (h : doc.replaceLine i new = (.ok (), doc')) :
    doc'.modified = true := by
  unfold replaceLine at h
  split at h
  · cases h
  · rw [← (Prod.mk.inj h).2]

/-- All lines are computed before any is replaced, so that an advance that fails has replaced
none. -/
theorem Consistent.advanceLines_error (h : doc.Consistent) {lines : List Nat} {error : OutOfRange}
    (hfail : doc.advanceLines set lines = (.error error, doc')) : doc' = doc := by
  rcases h.advanceLines_cases set lines with ⟨_, -, -, -, hrun⟩ | ⟨-, _, _, -, -, -, hrun⟩
  · rw [hrun] at hfail
    exact (Prod.ext_iff.mp hfail).2.symm
  · rw [hrun] at hfail
    cases hfail

end Edits

end Document

/-- A document and the world it is edited in. -/
structure Desk where
  doc : Document
  machine : Machine

/-- What can be done with a document. -/
inductive Operation
  | replace (line : Nat) (new : Text)
  | advance (set : TokenSet) (accepted : set.Accepted) (lines : List Nat)
  | save
  | write (path : Path)

namespace Desk

/-- The outcome of an edit of the document. -/
def edited (desk : Desk) : Except OutOfRange α × Document → Except Failure Unit × Desk
  | (.ok _, doc) => (.ok (), { desk with doc })
  | (.error error, doc) => (.error (.outOfRange error), { desk with doc })

/-- What an operation gives, and the document and its world after it. -/
def apply (desk : Desk) : Operation → Except Failure Unit × Desk
  | .replace line new => desk.edited (desk.doc.replaceLine line new)
  | .advance set _ lines => desk.edited (desk.doc.advanceLines set lines)
  | .save =>
    match desk.machine.perform desk.doc.save with
    | (.ok doc, machine) => (.ok (), ⟨doc, machine⟩)
    | (.error failure, machine) => (.error failure, { desk with machine })
  | .write path =>
    match desk.machine.perform (desk.doc.writeTo path) with
    | (result, machine) => (result, { desk with machine })

/-- The document and its world after operations one after another, whether they fail or not. -/
def after (desk : Desk) (operations : List Operation) : Desk :=
  operations.foldl (fun desk operation => (desk.apply operation).2) desk

/-- The text that was loaded or saved last once an operation has been carried out, where it was
`text` before. -/
def savedBy (text : Text) (operation : Operation) (outcome : Except Failure Unit × Desk) : Text :=
  match operation, outcome with
  | .save, (.ok _, next) => next.doc.text
  | _, _ => text

/-- The text of the last save that succeeds, and `text` if none does. -/
def saved (text : Text) (desk : Desk) : List Operation → Text
  | [] => text
  | operation :: rest =>
    saved (savedBy text operation (desk.apply operation)) (desk.apply operation).2 rest

/-- What holds between operations, where `text` was loaded or saved last. -/
structure Tracked (desk : Desk) (text : Text) : Prop where
  consistent : desk.doc.Consistent
  unmodified : desk.doc.modified = false → desk.doc.text = text
  file : ∀ path, desk.doc.filename = some path →
    ∃ location content,
      desk.machine.files.Holds desk.machine.directory path location content ∧
      (desk.doc.modified = false → content = desk.doc.text)

section Step

variable {desk : Desk} {text : Text}

theorem Tracked.edit (h : desk.Tracked text) {doc : Document} (hedit : Document.Edit desk.doc doc) :
    Tracked { desk with doc } text := by
  refine ⟨hedit.consistent h.consistent, ?_, ?_⟩
  · intro hclean
    cases hedit.eq_of_unmodified hclean
    exact h.unmodified hclean
  · intro path hpath
    obtain ⟨location, content, holds, hcontent⟩ := h.file path (hedit.filename.symm.trans hpath)
    refine ⟨location, content, holds, ?_⟩
    intro hclean
    cases hedit.eq_of_unmodified hclean
    exact hcontent hclean

/-- A write ends in a failure that changes nothing, or in the files that it makes. -/
theorem perform_writeTo_cases (doc : Document) (machine : Machine) (path : Path) :
    (∃ failure, machine.perform (doc.writeTo path) = (.error failure, machine)) ∨
    ∃ files records, machine.files.write machine.directory path doc.text = .ok files ∧
      machine.perform (doc.writeTo path) = (.ok (), { machine with files, records }) := by
  unfold Document.writeTo
  cases hwrite : machine.files.write machine.directory path doc.text with
  | ok files =>
    refine .inr ⟨files, machine.records ++ [⟨.info, .document, "wrote ".toList ++ path⟩], rfl, ?_⟩
    rw [perform_bind_of_ok (perform_write hwrite), perform_bind_of_ok (perform_orStop_ok _ _),
      perform_report]
  | error error =>
    refine .inl ⟨.io error, ?_⟩
    have hfail : machine.perform (ExceptT.lift (Host.write path doc.text)) =
        (.ok (.error error), machine) := by
      change ((.ok (machine.write path doc.text).1, (machine.write path doc.text).2) :
        Except Failure _ × Machine) = _
      rw [Machine.write, hwrite]
    rw [perform_bind_of_ok hfail, perform_bind_of_error (perform_orStop_error _ _)]

/-- A file that holds the text of an unmodified document holds it after every write of that text. -/
theorem Tracked.written (h : desk.Tracked text) {other : Path} {files : FileTree}
    (hwrite : desk.machine.files.write desk.machine.directory other desk.doc.text = .ok files)
    (records : List Record) :
    Tracked { desk with machine := { desk.machine with files, records } } text := by
  refine ⟨h.consistent, h.unmodified, ?_⟩
  intro path hpath
  obtain ⟨location, content, holds, hcontent⟩ := h.file path hpath
  rcases holds.write_eq_ok hwrite with hold | hnew
  · exact ⟨location, content, hold, hcontent⟩
  · exact ⟨location, desk.doc.text, hnew, fun _ => rfl⟩

/-- All that a save can come to. -/
theorem Tracked.save_cases (h : desk.Tracked text) :
    (∃ failure, desk.apply .save = (.error failure, desk)) ∨
    ∃ machine, desk.apply .save = (.ok (), ⟨{ desk.doc with modified := false }, machine⟩) ∧
      Tracked ⟨{ desk.doc with modified := false }, machine⟩ desk.doc.text := by
  cases hname : desk.doc.filename with
  | none =>
    left
    have hfail : desk.machine.perform desk.doc.save = (.error (.io .noFilename), desk.machine) := by
      unfold Document.save
      rw [hname]
      rfl
    refine ⟨.io .noFilename, ?_⟩
    simp only [apply, hfail]
  | some path =>
    right
    obtain ⟨location, content, holds, -⟩ := h.file path hname
    have hsave := Session.perform_save holds hname
    refine ⟨{ desk.machine with
        files := desk.machine.files.set location (.file desk.doc.text.bytes)
        records := desk.machine.records ++ [⟨.info, .document, "wrote ".toList ++ path⟩] },
      by simp only [apply, hsave], h.consistent, fun _ => rfl, ?_⟩
    intro other hother
    cases hname.symm.trans hother
    exact ⟨location, desk.doc.text, holds.set desk.doc.text, fun _ => rfl⟩

/-- What one operation does to a document. -/
structure Step (desk : Desk) (operation : Operation) (result : Except Failure Unit) (next : Desk) :
    Prop where
  filename : next.doc.filename = desk.doc.filename
  failed : ∀ failure, result = .error failure → next.doc = desk.doc
  replaced : ∀ line new, operation = .replace line new → result = .ok () → next.doc.modified = true
  saved : operation = .save → result = .ok () →
    next.doc.modified = false ∧ next.doc.text = desk.doc.text
  written : ∀ path, operation = .write path → next.doc = desk.doc
  kept : desk.doc.modified = true → next.doc.modified = false → operation = .save ∧ result = .ok ()

/-- The document and its world are in order after an operation, which has done what it should. -/
def InOrder (desk : Desk) (text : Text) (operation : Operation) : Prop :=
  Tracked (desk.apply operation).2 (savedBy text operation (desk.apply operation)) ∧
    Step desk operation (desk.apply operation).1 (desk.apply operation).2

/-- An operation that leaves the document as it is. -/
theorem step_of_same {operation : Operation} {result : Except Failure Unit} {machine : Machine}
    (hreplace : ∀ line new, operation = .replace line new → result ≠ .ok ())
    (hsave : operation = .save → result ≠ .ok ()) :
    Step desk operation result { desk with machine } where
  filename := rfl
  failed _ _ := rfl
  replaced line new ho hok := absurd hok (hreplace line new ho)
  saved ho hok := absurd hok (hsave ho)
  written _ _ := rfl
  kept hmodified hclean := by
    rw [hmodified] at hclean
    cases hclean

theorem Tracked.replace (h : desk.Tracked text) (line : Nat) (new : Text) :
    desk.InOrder text (.replace line new) := by
  have hedit := Document.edit_replaceLine desk.doc line new
  unfold InOrder
  rw [apply]
  cases hrun : desk.doc.replaceLine line new with
  | mk result doc =>
    rw [hrun] at hedit
    cases result with
    | error error =>
      cases Document.replaceLine_error hrun
      exact ⟨h, step_of_same nofun nofun⟩
    | ok =>
      have hmodified := Document.replaceLine_ok hrun
      refine ⟨h.edit hedit, hedit.filename, nofun, fun _ _ _ _ => hmodified, nofun, nofun, ?_⟩
      intro _ hclean
      exact absurd (hmodified.symm.trans hclean) (by simp)

theorem Tracked.advance (h : desk.Tracked text) {set : TokenSet} (accepted : set.Accepted)
    (lines : List Nat) : desk.InOrder text (.advance set accepted lines) := by
  have hedit := Document.edit_advanceLines desk.doc set lines
  unfold InOrder
  rw [apply]
  cases hrun : desk.doc.advanceLines set lines with
  | mk result doc =>
    rw [hrun] at hedit
    cases result with
    | error error =>
      cases h.consistent.advanceLines_error hrun
      exact ⟨h, step_of_same nofun nofun⟩
    | ok count =>
      refine ⟨h.edit hedit, hedit.filename, nofun, nofun, nofun, nofun, ?_⟩
      intro hmodified hclean
      cases hedit.eq_of_unmodified hclean
      exact absurd (hmodified.symm.trans hclean) (by simp)

theorem Tracked.save (h : desk.Tracked text) : desk.InOrder text .save := by
  unfold InOrder
  rcases h.save_cases with ⟨failure, hfail⟩ | ⟨machine, hok, htracked⟩
  · rw [hfail]
    exact ⟨h, step_of_same nofun nofun⟩
  · rw [hok]
    exact ⟨htracked, rfl, nofun, nofun, fun _ _ => ⟨rfl, rfl⟩, nofun, fun _ _ => ⟨rfl, rfl⟩⟩

theorem Tracked.write (h : desk.Tracked text) (path : Path) :
    desk.InOrder text (.write path) := by
  unfold InOrder
  rw [apply]
  rcases perform_writeTo_cases desk.doc desk.machine path with
    ⟨failure, hfail⟩ | ⟨files, records, hwrite, hok⟩
  · rw [hfail]
    exact ⟨h, step_of_same nofun nofun⟩
  · rw [hok]
    exact ⟨h.written hwrite records, step_of_same nofun nofun⟩

theorem Tracked.apply (h : desk.Tracked text) (operation : Operation) :
    desk.InOrder text operation := by
  cases operation with
  | replace line new => exact h.replace line new
  | advance set accepted lines => exact h.advance accepted lines
  | save => exact h.save
  | write path => exact h.write path

/-- A run of operations keeps what each of them keeps. -/
theorem Tracked.run (h : desk.Tracked text) (operations : List Operation) :
    Tracked (desk.after operations) (saved text desk operations) := by
  induction operations generalizing desk text with
  | nil => exact h
  | cons operation rest ih => exact ih (h.apply operation).1

end Step

end Desk

end Checklist
