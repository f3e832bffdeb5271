import Checklist.Machine
import Checklist.Session

namespace Checklist

namespace Machine

/-- What an action gives in a machine, and what the machine is after it. -/
def perform (machine : Machine) (action : Run (StateM Machine) α) : Except Failure α × Machine :=
  action.run.run machine

section Steps

variable {machine after : Machine}

@[simp] theorem perform_pure (a : α) : machine.perform (pure a) = (.ok a, machine) := rfl

/-- A failure ends a sequence of actions where it stands. -/
theorem perform_bind (action : Run (StateM Machine) α) (next : α → Run (StateM Machine) β) :
    machine.perform (action >>= next) =
      match machine.perform action with
      | (.ok a, after) => after.perform (next a)
      | (.error failure, after) => (.error failure, after) := by
  unfold perform ExceptT.run StateT.run
  simp only [bind, ExceptT.bind, ExceptT.mk, StateT.bind, ExceptT.bindCont]
  cases action machine with
  | mk result after => cases result <;> rfl

theorem perform_bind_of_ok {action : Run (StateM Machine) α} {a : α}
    (h : machine.perform action = (.ok a, after)) (next : α → Run (StateM Machine) β) :
    machine.perform (action >>= next) = after.perform (next a) := by
  rw [perform_bind, h]

theorem perform_bind_of_error {action : Run (StateM Machine) α} {failure : Failure}
    (h : machine.perform action = (.error failure, after)) (next : α → Run (StateM Machine) β) :
    machine.perform (action >>= next) = (.error failure, after) := by
  rw [perform_bind, h]

@[simp] theorem perform_orStop_ok (wrap : ε → Failure) (a : α) :
    machine.perform (Run.orStop wrap (.ok a)) = (.ok a, machine) := rfl

@[simp] theorem perform_orStop_error (wrap : ε → Failure) (error : ε) :
    machine.perform (Run.orStop wrap (.error error) : Run (StateM Machine) α) =
      (.error (wrap error), machine) := rfl

@[simp] theorem perform_print (text : Text) :
    machine.perform (Run.print text) =
      (.ok (), { machine with output := machine.output ++ text }) :=
  rfl

@[simp] theorem perform_report (level : Level) (reporter : Reporter) (message : Text) :
    machine.perform (Run.report level reporter message) =
      (.ok (), { machine with records := machine.records ++ [⟨level, reporter, message⟩] }) :=
  rfl

theorem perform_present (path : Path) :
    machine.perform (ExceptT.lift (Host.present path)) =
      (.ok (machine.files.present machine.directory path), machine) :=
  rfl

theorem perform_read (path : Path) :
    machine.perform (ExceptT.lift (Host.read path)) =
      (.ok (machine.files.read machine.directory path), machine) :=
  rfl

theorem perform_write {path : Path} {text : Text} {files : FileTree}
    (h : machine.files.write machine.directory path text = .ok files) :
    machine.perform (ExceptT.lift (Host.write path text)) =
      (.ok (.ok ()), { machine with files }) := by
  change ((.ok (machine.write path text).1, (machine.write path text).2) :
    Except Failure _ × Machine) = _
  rw [write, h]

theorem perform_load (machine : Machine) (path : Path) :
    machine.perform (Document.load path) =
      match machine.files.read machine.directory path with
      | .ok text => (.ok (Document.ofFile path text), machine)
      | .error error => (.error (.io error), machine) := by
  unfold Document.load
  rw [perform_bind_of_ok (perform_read path)]
  cases machine.files.read machine.directory path with
  | ok text => rfl
  | error error => rfl

theorem perform_load_of_ok {path : Path} {text : Text}
    (h : machine.files.read machine.directory path = .ok text) :
    machine.perform (Document.load path) = (.ok (Document.ofFile path text), machine) := by
  rw [perform_load, h]

theorem perform_configLoad_of_ok {path : Path} {text : Text} {config : Config}
    (hpresent : machine.files.present machine.directory path = true)
    (hread : machine.files.read machine.directory path = .ok text)
    (hconfig : Config.ofToml text = .ok config) :
    machine.perform (Config.load path) = (.ok config, machine) := by
  unfold Config.load
  rw [perform_bind_of_ok (perform_present path), hpresent, if_pos rfl,
    perform_bind_of_ok (perform_read path), hread, perform_bind_of_ok (perform_orStop_ok _ _),
    hconfig, perform_orStop_ok]

end Steps

end Machine

namespace Run
open Machine

variable {action : Run (StateM Machine) α} {next : α → Run (StateM Machine) β}

/-- The action changes nothing. -/
def ReadOnly (action : Run (StateM Machine) α) : Prop :=
  ∀ machine : Machine, (machine.perform action).2 = machine

/-- The action cannot fail. -/
def Sure (action : Run (StateM Machine) α) : Prop :=
  ∀ machine : Machine, ∃ a after, machine.perform action = (.ok a, after)

/-- An action that fails has changed nothing. -/
def Atomic (action : Run (StateM Machine) α) : Prop :=
  ∀ (machine after : Machine) (failure : Failure),
    machine.perform action = (.error failure, after) → after = machine

/-- The action changes no file. -/
def KeepsFiles (action : Run (StateM Machine) α) : Prop :=
  ∀ machine : Machine, (machine.perform action).2.files = machine.files

section Kinds

theorem ReadOnly.perform_eq (h : ReadOnly action) (machine : Machine) :
    machine.perform action = ((machine.perform action).1, machine) :=
  Prod.ext rfl (h machine)

theorem ReadOnly.keepsFiles (h : ReadOnly action) : KeepsFiles action :=
  fun machine => congrArg Machine.files (h machine)

theorem Sure.atomic (h : Sure action) : Atomic action := by
  intro machine after failure hfail
  obtain ⟨a, last, hok⟩ := h machine
  rw [hok] at hfail
  cases hfail

/-- What has only been read leaves nothing to undo. -/
theorem ReadOnly.bind_atomic (h : ReadOnly action) (hnext : ∀ a, Atomic (next a)) :
    Atomic (action >>= next) := by
  intro machine after failure hfail
  rw [perform_bind, h.perform_eq] at hfail
  cases hresult : (machine.perform action).1 with
  | ok a =>
    rw [hresult] at hfail
    exact hnext a machine after failure hfail
  | error error =>
    rw [hresult] at hfail
    cases hfail
    rfl

theorem Sure.bind (h : Sure action) (hnext : ∀ a, Sure (next a)) : Sure (action >>= next) := by
  intro machine
  obtain ⟨a, after, hok⟩ := h machine
  rw [perform_bind_of_ok hok]
  exact hnext a after

theorem KeepsFiles.bind (h : KeepsFiles action) (hnext : ∀ a, KeepsFiles (next a)) :
    KeepsFiles (action >>= next) := by
  intro machine
  have hfiles := h machine
  rw [perform_bind]
  cases hresult : machine.perform action with
  | mk result after =>
    rw [hresult] at hfiles
    cases result with
    | ok a => exact (hnext a after).trans hfiles
    | error failure => exact hfiles

end Kinds

section Actions

theorem readOnly_pure (a : α) : ReadOnly (pure a) :=
  fun _ => rfl

theorem readOnly_throw (failure : Failure) : ReadOnly (throw failure : Run (StateM Machine) α) :=
  fun _ => rfl

theorem readOnly_orStop (wrap : ε → Failure) (result : Except ε α) :
    ReadOnly (orStop wrap result) := by
  cases result with
  | ok a => exact readOnly_pure a
  | error error => exact readOnly_throw (wrap error)

theorem readOnly_load (path : Path) : ReadOnly (Document.load path) := by
  intro machine
  rw [perform_load]
  cases machine.files.read machine.directory path with
  | ok text => rfl
  | error error => rfl

/-- Reading a configuration changes nothing, whether there is one or not. -/
theorem readOnly_configLoad (path : Path) : ReadOnly (Config.load path) := by
  intro machine
  unfold Config.load
  rw [perform_bind_of_ok (perform_present path)]
  split
  · rw [perform_bind_of_ok (perform_read path)]
    cases machine.files.read machine.directory path with
    | ok text => exact readOnly_orStop _ _ machine
    | error error => rfl
  · rfl

theorem readOnly_configOf (home : Option Path) (invocation : Invocation) :
    ReadOnly (Session.configOf home invocation) := by
  unfold Session.configOf
  split
  · exact readOnly_pure _
  · exact readOnly_pure _
  · exact readOnly_configLoad _
  · exact readOnly_configLoad _
  · exact readOnly_pure _

theorem sure_print (text : Text) : Sure (print text) :=
  fun _ => ⟨(), _, rfl⟩

theorem sure_report (level : Level) (reporter : Reporter) (message : Text) :
    Sure (report level reporter message) :=
  fun _ => ⟨(), _, rfl⟩

theorem keepsFiles_print (text : Text) : KeepsFiles (print text) :=
  fun _ => rfl

theorem keepsFiles_report (level : Level) (reporter : Reporter) (message : Text) :
    KeepsFiles (report level reporter message) :=
  fun _ => rfl

end Actions

end Run

end Checklist
