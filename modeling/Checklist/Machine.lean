import Checklist.FileTree

namespace Checklist

/-- A world that is all in the open: its files, the directory that paths lead from, what has been
printed and what has been reported. -/
structure Machine where
  files : FileTree
  directory : List Text
  output : Text
  records : List Record

namespace Machine

def start (files : FileTree) (directory : List Text) : Machine := ⟨files, directory, [], []⟩

def present (path : Path) : StateM Machine Bool :=
  fun machine => (machine.files.present machine.directory path, machine)

def read (path : Path) : StateM Machine (Except IoError Text) :=
  fun machine => (machine.files.read machine.directory path, machine)

def write (path : Path) (text : Text) : StateM Machine (Except IoError Unit) :=
  fun machine =>
    match machine.files.write machine.directory path text with
    | .ok files => (.ok (), { machine with files })
    | .error error => (.error error, machine)

def print (text : Text) : StateM Machine Unit :=
  fun machine => ((), { machine with output := machine.output ++ text })

def report (record : Record) : StateM Machine Unit :=
  fun machine => ((), { machine with records := machine.records ++ [record] })

instance : Host (StateM Machine) := ⟨present, read, write, print, report⟩

end Machine

end Checklist
