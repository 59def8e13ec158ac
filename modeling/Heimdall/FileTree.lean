import Heimdall.Descriptors
import Heimdall.Effect.Wp

/-!
# Trees of files

A world for the calls of `DescriptorOp`: a tree of files and directories that nobody else changes,
and the descriptors a process has open in it. A descriptor stands for the path it was opened under.
`FileTree.respond` is what the operating system answers, with the permission checks of the process;
no call fails for another reason.

The entries of a directory stand in the order in which they are listed. What is neither a regular file
nor a directory is a symbolic link or the like, which no call opens.
-/

namespace Heimdall

open Effect

structure Attributes where
  owner : ℕ
  mode : ℕ
  device : ℕ
  inode : ℕ
deriving DecidableEq

/-- The entries of a directory. -/
inductive Entries where
  | nil
  | leaf (name : String) (regular : Bool) (attributes : Attributes) (rest : Entries)
  | directory (name : String) (attributes : Attributes) (inside rest : Entries)
deriving DecidableEq

inductive Node where
  | leaf (regular : Bool) (attributes : Attributes)
  | directory (attributes : Attributes) (entries : Entries)
deriving DecidableEq

def Node.status : Node → FileStatus
  | .leaf regular a => ⟨if regular then .regular else .other, a.owner, a.mode, a.device, a.inode⟩
  | .directory a _ => ⟨.directory, a.owner, a.mode, a.device, a.inode⟩

namespace Entries

def names : Entries → List String
  | nil => []
  | leaf name _ _ rest => name :: rest.names
  | directory name _ _ rest => name :: rest.names

def lookup (name : String) : Entries → Option Node
  | nil => none
  | leaf n regular a rest => if n = name then some (.leaf regular a) else rest.lookup name
  | directory n a inside rest => if n = name then some (.directory a inside) else rest.lookup name

def erase (name : String) : Entries → Entries
  | nil => nil
  | leaf n regular a rest => if n = name then rest else leaf n regular a (rest.erase name)
  | directory n a inside rest => if n = name then rest else directory n a inside (rest.erase name)

/-- Change what is in the directory of a name. -/
def modify (name : String) (f : Entries → Entries) : Entries → Entries
  | nil => nil
  | leaf n regular a rest =>
    if n = name then leaf n regular a rest else leaf n regular a (rest.modify name f)
  | directory n a inside rest =>
    if n = name then directory n a (f inside) rest else directory n a inside (rest.modify name f)

/-- Put other entries into the directory at a path. -/
def put : List String → Entries → Entries → Entries
  | [], new, _ => new
  | name :: path, new, es => es.modify name (put path new)

/-- No name stands twice in a directory. -/
def Distinct : Entries → Prop
  | nil => True
  | leaf name _ _ rest => name ∉ rest.names ∧ rest.Distinct
  | directory name _ inside rest => name ∉ rest.names ∧ inside.Distinct ∧ rest.Distinct

variable {es : Entries} {name : String} {f g : Entries → Entries}

theorem lookup_eq_none (h : name ∉ es.names) : es.lookup name = none := by
  induction es with
  | nil => rfl
  | leaf n regular a rest ih =>
    obtain ⟨hne, hrest⟩ := not_or.mp (List.mem_cons.not.mp h)
    rw [lookup, if_neg (Ne.symm hne), ih hrest]
  | directory n a inside rest _ ih =>
    obtain ⟨hne, hrest⟩ := not_or.mp (List.mem_cons.not.mp h)
    rw [lookup, if_neg (Ne.symm hne), ih hrest]

theorem modify_modify : (es.modify name f).modify name g = es.modify name (g ∘ f) := by
  induction es with
  | nil => rfl
  | leaf n regular a rest ih => by_cases hn : n = name <;> simp [modify, hn, ih]
  | directory n a inside rest _ ih => by_cases hn : n = name <;> simp [modify, hn, ih]

theorem lookup_modify {a : Attributes} {inside : Entries}
    (h : es.lookup name = some (.directory a inside)) :
    (es.modify name f).lookup name = some (.directory a (f inside)) := by
  induction es with
  | nil => cases h
  | leaf n regular b rest ih =>
    rw [lookup] at h
    split at h
    · cases h
    · next hn => rw [modify, if_neg hn, lookup, if_neg hn, ih h]
  | directory n b inside' rest _ ih =>
    rw [lookup] at h
    split at h
    · next hn =>
      cases h
      rw [modify, if_pos hn, lookup, if_pos hn]
    · next hn => rw [modify, if_neg hn, lookup, if_neg hn, ih h]

/-- Only what is in the directory matters. -/
theorem modify_congr {a : Attributes} {inside : Entries}
    (h : es.lookup name = some (.directory a inside)) (hfg : f inside = g inside) :
    es.modify name f = es.modify name g := by
  induction es with
  | nil => rfl
  | leaf n regular b rest ih =>
    rw [lookup] at h
    split at h
    · cases h
    · next hn => rw [modify, if_neg hn, modify, if_neg hn, ih h]
  | directory n b inside' rest _ ih =>
    rw [lookup] at h
    split at h
    · next hn =>
      cases h
      rw [modify, if_pos hn, modify, if_pos hn, hfg]
    · next hn => rw [modify, if_neg hn, modify, if_neg hn, ih h]

theorem modify_id : es.modify name id = es := by
  induction es with
  | nil => rfl
  | leaf n regular b rest ih => rw [modify, ih, ite_self]
  | directory n b inside rest _ ih => rw [modify, ih, id, ite_self]

theorem erase_modify : (es.modify name f).erase name = es.erase name := by
  induction es with
  | nil => rfl
  | leaf n regular a rest ih =>
    by_cases hn : n = name
    · rw [modify, if_pos hn]
    · rw [modify, if_neg hn, erase, if_neg hn, erase, if_neg hn, ih]
  | directory n a inside rest _ ih =>
    by_cases hn : n = name
    · rw [modify, if_pos hn, erase, if_pos hn, erase, if_pos hn]
    · rw [modify, if_neg hn, erase, if_neg hn, erase, if_neg hn, ih]

theorem lookup_erase (h : es.Distinct) : (es.erase name).lookup name = none := by
  induction es with
  | nil => rfl
  | leaf n regular a rest ih =>
    by_cases hn : n = name
    · rw [erase, if_pos hn]
      exact lookup_eq_none (hn ▸ h.1)
    · rw [erase, if_neg hn, lookup, if_neg hn, ih h.2]
  | directory n a inside rest _ ih =>
    by_cases hn : n = name
    · rw [erase, if_pos hn]
      exact lookup_eq_none (hn ▸ h.1)
    · rw [erase, if_neg hn, lookup, if_neg hn, ih h.2.2]

theorem erase_of_lookup_eq_none (h : es.lookup name = none) : es.erase name = es := by
  induction es with
  | nil => rfl
  | leaf n regular a rest ih =>
    rw [lookup] at h
    split at h
    · cases h
    · next hn => rw [erase, if_neg hn, ih h]
  | directory n a inside rest _ ih =>
    rw [lookup] at h
    split at h
    · cases h
    · next hn => rw [erase, if_neg hn, ih h]

theorem Distinct.inside {a : Attributes} {inside : Entries} (h : es.Distinct)
    (hn : es.lookup name = some (.directory a inside)) : inside.Distinct := by
  induction es with
  | nil => cases hn
  | leaf n regular b rest ih =>
    rw [lookup] at hn
    split at hn
    · cases hn
    · exact ih h.2 hn
  | directory n b inside' rest _ ih =>
    rw [lookup] at hn
    split at hn
    · cases hn
      exact h.2.1
    · exact ih h.2.2 hn

theorem put_put (path : List String) (new new' : Entries) (es : Entries) :
    put path new' (put path new es) = put path new' es := by
  induction path generalizing es with
  | nil => rfl
  | cons name path ih =>
    rw [put, put, put, modify_modify]
    congr 1
    exact funext ih

end Entries

namespace Node

/-- What is at a path. -/
def find : Node → List String → Option Node
  | n, [] => some n
  | .leaf _ _, _ :: _ => none
  | .directory _ es, name :: path => (es.lookup name).bind (·.find path)

def put (path : List String) (new : Entries) : Node → Node
  | .leaf regular a => .leaf regular a
  | .directory a es => .directory a (.put path new es)

def Distinct : Node → Prop
  | .leaf _ _ => True
  | .directory _ es => es.Distinct

variable {n : Node} {path : List String} {name : String} {a b : Attributes} {es : Entries}

@[simp] theorem find_nil (n : Node) : n.find [] = some n := by cases n <;> rfl

theorem find_child (h : n.find path = some (.directory a es)) :
    n.find (path ++ [name]) = es.lookup name := by
  induction path generalizing n with
  | nil =>
    rw [find_nil] at h
    obtain rfl := Option.some.inj h
    rw [List.nil_append, find]
    simp
  | cons first path ih =>
    cases n with
    | leaf => cases h
    | directory c es' =>
      rw [find] at h
      obtain ⟨child, hchild, h⟩ := Option.bind_eq_some_iff.mp h
      rw [List.cons_append, find, hchild, Option.bind_some, ih h]

theorem put_put (new new' : Entries) : (n.put path new).put path new' = n.put path new' := by
  cases n with
  | leaf => rfl
  | directory a es => rw [put, put, put, Entries.put_put]

theorem find_put (new : Entries) (h : n.find path = some (.directory a es)) :
    (n.put path new).find path = some (.directory a new) := by
  induction path generalizing n with
  | nil =>
    rw [find_nil] at h
    obtain rfl := Option.some.inj h
    rw [find_nil]
    rfl
  | cons first path ih =>
    cases n with
    | leaf => cases h
    | directory c es' =>
      rw [find] at h
      obtain ⟨child, hchild, h⟩ := Option.bind_eq_some_iff.mp h
      cases child with
      | leaf => cases path <;> cases h
      | directory d inside =>
        have hput := ih h
        rw [put] at hput
        rw [put, Entries.put, find, Entries.lookup_modify hchild, Option.bind_some, hput]

theorem put_self (h : n.find path = some (.directory a es)) : n.put path es = n := by
  induction path generalizing n with
  | nil =>
    rw [find_nil] at h
    obtain rfl := Option.some.inj h
    rfl
  | cons first path ih =>
    cases n with
    | leaf => cases h
    | directory c es' =>
      rw [find] at h
      obtain ⟨child, hchild, h⟩ := Option.bind_eq_some_iff.mp h
      cases child with
      | leaf => cases path <;> cases h
      | directory d inside =>
        have hput := ih h
        rw [put] at hput
        have hinside : Entries.put path es inside = id inside := (Node.directory.inj hput).2
        rw [put, Entries.put, Entries.modify_congr hchild hinside, Entries.modify_id]

/-- Other entries for a directory in a directory. -/
theorem put_child (new : Entries) (h : n.find path = some (.directory a es)) :
    n.put (path ++ [name]) new = n.put path (es.modify name fun _ ↦ new) := by
  induction path generalizing n with
  | nil =>
    rw [find_nil] at h
    obtain rfl := Option.some.inj h
    rfl
  | cons first path ih =>
    cases n with
    | leaf => cases h
    | directory c es' =>
      rw [find] at h
      obtain ⟨child, hchild, h⟩ := Option.bind_eq_some_iff.mp h
      cases child with
      | leaf => cases path <;> cases h
      | directory d inside =>
        have hput := ih h
        rw [put, put] at hput
        have hinside := (Node.directory.inj hput).2
        rw [List.cons_append, put, put, Entries.put, Entries.put,
          Entries.modify_congr hchild hinside]

end Node

/-! ## The operating system -/

/-- What the process that makes the calls may do. -/
structure Access where
  user : ℕ
  /-- Permissions are not checked. -/
  privileged : Bool
  /-- What it may do with the files of others. -/
  foreign : Attributes → ℕ → Bool

/-- The process has the permission of the owner's bit. -/
def Access.may (who : Access) (a : Attributes) (bit : ℕ) : Bool :=
  who.privileged || if a.owner = who.user then a.mode &&& bit != 0 else who.foreign a bit

/-- A process may do anything in its private directories. -/
theorem Access.may_private {who : Access} {a : Attributes} (howner : a.owner = who.user)
    (hmode : a.mode = 0o700) : who.may a 0o400 ∧ who.may a 0o200 ∧ who.may a 0o100 := by
  simp [Access.may, howner, hmode]

structure FileTree where
  root : Option Node
  descriptors : Descriptor → Option (List String)
  next : Descriptor

namespace FileTree

def find (t : FileTree) (path : List String) : Option Node := t.root.bind (·.find path)

/-- Open a path under the next descriptor. -/
def opening (t : FileTree) (path : List String) : FileTree :=
  { t with descriptors := Function.update t.descriptors t.next (some path), next := t.next + 1 }

def put (t : FileTree) (path : List String) (new : Entries) : FileTree :=
  { t with root := t.root.map (·.put path new) }

/-- What a name in an open directory stands for. -/
def locate (who : Access) (t : FileTree) (fd : Descriptor) (name : String) :
    Except Exc (List String × Node) :=
  match t.descriptors fd with
  | some path => match t.find path with
    | some (.directory a es) =>
      if who.may a 0o100 then
        match es.lookup name with
        | some n => .ok (path ++ [name], n)
        | none => .error .fileNotFound
      else .error .osError
    | _ => .error .osError
  | none => .error .osError

/-- Open what has been found, if the process may read it. -/
def openNode (who : Access) (t : FileTree) (path : List String) (a : Attributes) :
    Except Exc Descriptor × FileTree :=
  if who.may a 0o400 then (.ok t.next, t.opening path) else (.error .osError, t)

/-- Remove an entry of an open directory, if the process may write there. -/
def remove (who : Access) (t : FileTree) (fd : Descriptor) (name : String) :
    Except Exc Unit × FileTree :=
  match t.descriptors fd with
  | some path => match t.find path with
    | some (.directory a es) =>
      if who.may a 0o200 then (.ok (), t.put path (es.erase name)) else (.error .osError, t)
    | _ => (.error .osError, t)
  | none => (.error .osError, t)

def respond (who : Access) (t : FileTree) : (o : DescriptorOp) → Except Exc o.Ans × FileTree
  | .openAnchor => match t.root with
    | some (.directory a _) => t.openNode who [] a
    | some (.leaf _ _) => (.error .osError, t)
    | none => (.error .fileNotFound, t)
  | .openDirectory fd name => match t.locate who fd name with
    | .ok (path, .directory a _) => t.openNode who path a
    | .ok (_, .leaf _ _) => (.error .osError, t)
    | .error x => (.error x, t)
  | .openFile fd name => match t.locate who fd name with
    | .ok (path, .directory a _) => t.openNode who path a
    | .ok (path, .leaf regular a) => if regular then t.openNode who path a else (.error .osError, t)
    | .error x => (.error x, t)
  | .fstat fd => match (t.descriptors fd).bind t.find with
    | some n => (.ok n.status, t)
    | none => (.error .osError, t)
  | .stat fd name => match t.locate who fd name with
    | .ok (_, n) => (.ok n.status, t)
    | .error x => (.error x, t)
  | .listdir fd => match (t.descriptors fd).bind t.find with
    | some (.directory _ es) => (.ok es.names, t)
    | _ => (.error .osError, t)
  | .unlink fd name => match t.locate who fd name with
    | .ok (_, .leaf _ _) => t.remove who fd name
    | .ok (_, .directory _ _) => (.error .osError, t)
    | .error x => (.error x, t)
  | .rmdir fd name => match t.locate who fd name with
    | .ok (_, .directory _ .nil) => t.remove who fd name
    | .ok _ => (.error .osError, t)
    | .error x => (.error x, t)
  | .close fd => (.ok (), { t with descriptors := Function.update t.descriptors fd none })

/-- The world of a process that has the tree to itself. -/
abbrev World (who : Access) : Setting FileTree DescriptorOp DescriptorOp.Ans Exc :=
  .alone (fun t o r t' ↦ t.respond who o = (r, t')) fun _ _ _ _ ↦ True

theorem wp_respond {who : Access} {t : FileTree} (o : DescriptorOp)
    {Q : Except Exc o.Ans → FileTree → Prop} (h : Q (t.respond who o).1 (t.respond who o).2) :
    wp (World who) (Prog.op o) Q t := by
  rw [wp_op_alone]
  intro r t' hstep
  rw [hstep] at h
  exact ⟨trivial, h⟩

section Steps

variable {α : Type} {who : Access} {t t' : FileTree} {o : DescriptorOp} {a : o.Ans} {x : Exc}
  {k : o.Ans → Prog DescriptorOp DescriptorOp.Ans Exc α} {Q : Except Exc α → FileTree → Prop}

theorem wp_bind_answer (h : t.respond who o = (.ok a, t')) (hk : wp (World who) (k a) Q t') :
    wp (World who) (Prog.op o >>= k) Q t := by
  rw [wp_bind]
  refine wp_respond o ?_
  rw [h]
  exact hk

theorem wp_bind_failure (h : t.respond who o = (.error x, t')) (hQ : Q (.error x) t') :
    wp (World who) (Prog.op o >>= k) Q t := by
  rw [wp_bind]
  refine wp_respond o ?_
  rw [h]
  exact hQ

end Steps

/-! ### Later states -/

/-- The tree is the same, and so is what stood under the descriptors there were. -/
structure Later (t t' : FileTree) : Prop where
  root : t'.root = t.root
  next : t.next ≤ t'.next
  descriptors : ∀ fd < t.next, t'.descriptors fd = t.descriptors fd

section Later

variable {t t₁ t₂ : FileTree} {fd : Descriptor}

theorem Later.refl (t : FileTree) : Later t t := ⟨rfl, Nat.le_refl _, fun _ _ ↦ rfl⟩

theorem Later.trans (h₁ : Later t t₁) (h₂ : Later t₁ t₂) : Later t t₂ where
  root := h₂.root.trans h₁.root
  next := Nat.le_trans h₁.next h₂.next
  descriptors fd hfd := (h₂.descriptors fd (Nat.lt_of_lt_of_le hfd h₁.next)).trans
    (h₁.descriptors fd hfd)

theorem Later.opening (t : FileTree) (path : List String) : Later t (t.opening path) where
  root := rfl
  next := Nat.le_succ _
  descriptors _ hfd := Function.update_of_ne (Nat.ne_of_lt hfd) _ _

theorem Later.close (h : Later t t₁) (hfd : t.next ≤ fd) :
    Later t { t₁ with descriptors := Function.update t₁.descriptors fd none } where
  root := h.root
  next := h.next
  descriptors fd' hfd' :=
    (Function.update_of_ne (Nat.ne_of_lt (Nat.lt_of_lt_of_le hfd' hfd)) _ _).trans
      (h.descriptors fd' hfd')

theorem Later.put (h : Later t t₁) (path : List String) (new : Entries) :
    Later (t.put path new) (t₁.put path new) where
  root := congrArg (Option.map (Node.put path new)) h.root
  next := h.next
  descriptors := h.descriptors

end Later

/-! ### Open directories -/

/-- A directory that is open, in which the process may do anything. -/
structure Opens (who : Access) (t : FileTree) (fd : Descriptor) (path : List String)
    (a : Attributes) (es : Entries) : Prop where
  descriptor : t.descriptors fd = some path
  node : t.find path = some (.directory a es)
  own : a.owner = who.user
  mode : a.mode = 0o700

section Responses

variable {who : Access} {t : FileTree} {fd : Descriptor} {path : List String} {a b : Attributes}
  {es inside : Entries} {name : String} {n : Node}

theorem Opens.locate (h : Opens who t fd path a es) (hn : es.lookup name = some n) :
    t.locate who fd name = .ok (path ++ [name], n) := by
  rw [FileTree.locate, h.descriptor]
  simp [h.node, (Access.may_private h.own h.mode).2.2, hn]

theorem Opens.locate_none (h : Opens who t fd path a es) (hn : es.lookup name = none) :
    t.locate who fd name = .error .fileNotFound := by
  rw [FileTree.locate, h.descriptor]
  simp [h.node, (Access.may_private h.own h.mode).2.2, hn]

theorem Opens.remove (h : Opens who t fd path a es) :
    t.remove who fd name = (.ok (), t.put path (es.erase name)) := by
  rw [FileTree.remove, h.descriptor]
  simp [h.node, (Access.may_private h.own h.mode).2.1]

theorem Opens.find_child (h : Opens who t fd path a es) :
    t.find (path ++ [name]) = es.lookup name := by
  obtain ⟨root, hroot, hfind⟩ := Option.bind_eq_some_iff.mp h.node
  rw [FileTree.find, hroot, Option.bind_some, Node.find_child hfind]

theorem Opens.later {t' : FileTree} (h : Opens who t fd path a es) (hlater : Later t t')
    (hfd : fd < t.next) : Opens who t' fd path a es where
  descriptor := (hlater.descriptors fd hfd).trans h.descriptor
  node := by rw [FileTree.find, hlater.root, ← FileTree.find, h.node]
  own := h.own
  mode := h.mode

/-- The directory stays open when another descriptor is closed. -/
theorem Opens.close {fd' : Descriptor} (h : Opens who t fd path a es) (hne : fd ≠ fd') :
    Opens who { t with descriptors := Function.update t.descriptors fd' none } fd path a es where
  descriptor := (Function.update_of_ne hne _ _).trans h.descriptor
  node := h.node
  own := h.own
  mode := h.mode

/-- A directory in an open directory. -/
theorem Opens.opening (h : Opens who t fd path a es)
    (hn : es.lookup name = some (.directory b inside)) (howner : b.owner = who.user)
    (hmode : b.mode = 0o700) :
    Opens who (t.opening (path ++ [name])) t.next (path ++ [name]) b inside where
  descriptor := Function.update_self _ _ _
  node := h.find_child.trans hn
  own := howner
  mode := hmode

/-- The directory stays open when its entries change. -/
theorem Opens.put (h : Opens who t fd path a es) (new : Entries) :
    Opens who (t.put path new) fd path a new := by
  obtain ⟨root, hroot, hfind⟩ := Option.bind_eq_some_iff.mp h.node
  refine ⟨h.descriptor, ?_, h.own, h.mode⟩
  rw [FileTree.find, FileTree.put, hroot, Option.map_some, Option.bind_some, Node.find_put new hfind]

theorem put_put (new new' : Entries) : (t.put path new).put path new' = t.put path new' := by
  rw [FileTree.put, FileTree.put, FileTree.put, Option.map_map]
  congr 1
  exact congrArg (t.root.map ·) (funext fun n ↦ Node.put_put new new')

/-- Other entries for a directory in an open directory. -/
theorem Opens.put_child (h : Opens who t fd path a es) (new : Entries) :
    t.put (path ++ [name]) new = t.put path (es.modify name fun _ ↦ new) := by
  obtain ⟨root, hroot, hfind⟩ := Option.bind_eq_some_iff.mp h.node
  rw [FileTree.put, FileTree.put, hroot, Option.map_some, Option.map_some,
    Node.put_child new hfind]

theorem Opens.put_self (h : Opens who t fd path a es) : t.put path es = t := by
  obtain ⟨root, hroot, hfind⟩ := Option.bind_eq_some_iff.mp h.node
  rw [FileTree.put, hroot, Option.map_some, Node.put_self hfind, ← hroot]

theorem Opens.respond_stat (h : Opens who t fd path a es) (hn : es.lookup name = some n) :
    t.respond who (.stat fd name) = (.ok n.status, t) := by
  rw [respond, h.locate hn]

theorem Opens.respond_stat_none (h : Opens who t fd path a es) (hn : es.lookup name = none) :
    t.respond who (.stat fd name) = (.error .fileNotFound, t) := by
  rw [respond, h.locate_none hn]

theorem Opens.respond_fstat (h : Opens who t fd path a es) :
    t.respond who (.fstat fd) = (.ok (Node.directory a es).status, t) := by
  rw [respond, h.descriptor, Option.bind_some, h.node]

theorem Opens.respond_listdir (h : Opens who t fd path a es) :
    t.respond who (.listdir fd) = (.ok es.names, t) := by
  rw [respond, h.descriptor, Option.bind_some, h.node]

theorem Opens.respond_openDirectory (h : Opens who t fd path a es)
    (hn : es.lookup name = some (.directory b inside)) :
    t.respond who (.openDirectory fd name) = t.openNode who (path ++ [name]) b := by
  rw [respond, h.locate hn]

theorem Opens.respond_openDirectory_leaf {regular : Bool} (h : Opens who t fd path a es)
    (hn : es.lookup name = some (.leaf regular b)) :
    t.respond who (.openDirectory fd name) = (.error .osError, t) := by
  rw [respond, h.locate hn]

theorem Opens.respond_openDirectory_none (h : Opens who t fd path a es)
    (hn : es.lookup name = none) :
    t.respond who (.openDirectory fd name) = (.error .fileNotFound, t) := by
  rw [respond, h.locate_none hn]

theorem Opens.respond_openFile (h : Opens who t fd path a es)
    (hn : es.lookup name = some (.leaf true b)) :
    t.respond who (.openFile fd name) = t.openNode who (path ++ [name]) b := by
  rw [respond, h.locate hn]
  rfl

theorem Opens.respond_unlink {regular : Bool} (h : Opens who t fd path a es)
    (hn : es.lookup name = some (.leaf regular b)) :
    t.respond who (.unlink fd name) = (.ok (), t.put path (es.erase name)) := by
  rw [respond, h.locate hn]
  exact h.remove

theorem Opens.respond_rmdir (h : Opens who t fd path a es)
    (hn : es.lookup name = some (.directory b .nil)) :
    t.respond who (.rmdir fd name) = (.ok (), t.put path (es.erase name)) := by
  rw [respond, h.locate hn]
  exact h.remove

theorem openNode_ok (hmay : who.may a 0o400 = true) :
    t.openNode who path a = (.ok t.next, t.opening path) := if_pos hmay

theorem openNode_error (hmay : who.may a 0o400 = false) :
    t.openNode who path a = (.error .osError, t) := by simp [openNode, hmay]

end Responses

end FileTree

end Heimdall
