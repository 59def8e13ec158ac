import Heimdall.Errors

/-!
# Directories by descriptor

Trees are walked and removed through open directories: an entry is named by the descriptor of its
directory and its own name, and symbolic links are not followed. `DescriptorOp` lists the calls of
the operating system that do so.
-/

namespace Heimdall

abbrev Descriptor : Type := ℕ

inductive FileKind where
  | directory
  | regular
  | other
deriving DecidableEq

/-- The parts of an `os.stat_result` that are looked at. -/
structure FileStatus where
  kind : FileKind
  owner : ℕ
  /-- The permission bits. -/
  mode : ℕ
  device : ℕ
  inode : ℕ
deriving DecidableEq

/-- `_same_identity` -/
def FileStatus.sameIdentity (a b : FileStatus) : Bool :=
  a.device == b.device && a.inode == b.inode

/-- It belongs to the user and nobody else may do anything with it. -/
def FileStatus.isPrivate (status : FileStatus) (user : ℕ) (kind : FileKind) : Bool :=
  status.kind == kind && status.owner == user && status.mode &&& 0o077 == 0

inductive DescriptorOp where
  /-- Open the root directory. -/
  | openAnchor
  | openDirectory (parent : Descriptor) (name : String)
  | openFile (parent : Descriptor) (name : String)
  | fstat (fd : Descriptor)
  | stat (parent : Descriptor) (name : String)
  | listdir (fd : Descriptor)
  | unlink (parent : Descriptor) (name : String)
  | rmdir (parent : Descriptor) (name : String)
  | close (fd : Descriptor)
deriving DecidableEq

abbrev DescriptorOp.Ans : DescriptorOp → Type
  | .openAnchor | .openDirectory _ _ | .openFile _ _ => Descriptor
  | .fstat _ | .stat _ _ => FileStatus
  | .listdir _ => List String
  | _ => Unit

end Heimdall
