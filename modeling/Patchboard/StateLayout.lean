import Patchboard.FileTree

set_option autoImplicit false

namespace Patchboard

structure StateLayout where
  root : Path
deriving DecidableEq

namespace StateLayout

def receipts (l : StateLayout) : Path := l.root.join ⟨"installed"⟩

def staging (l : StateLayout) : Path := l.root.join ⟨"staging"⟩

def runs (l : StateLayout) : Path := l.root.join ⟨"runs"⟩

def safeChar (c : Char) : Char :=
  if c.isAlphanum || c = '-' || c = '_' || c = '.' then c else '_'

/-- A package id as a file name; characters outside a small set become underscores. -/
def fileStem (package : String) : String := String.ofList (package.toList.map safeChar)

def receipt (l : StateLayout) (package : String) : Path :=
  l.receipts.join ⟨fileStem package ++ ".receipt"⟩

def packageStaging (l : StateLayout) (package : String) : Path :=
  l.staging.join ⟨fileStem package⟩

def activeMarker (l : StateLayout) : Path := l.runs.join ⟨"active"⟩

def metadata (l : StateLayout) (run : String) : Path := l.runs.join ⟨run ++ ".json"⟩

def journal (l : StateLayout) (run : String) : Path := l.runs.join ⟨run ++ ".journal"⟩

def ensureBase (l : StateLayout) : Job Unit := do
  FileTree.ensureDirectory l.receipts
  FileTree.ensureDirectory l.staging
  FileTree.ensureDirectory l.runs

end StateLayout

end Patchboard
