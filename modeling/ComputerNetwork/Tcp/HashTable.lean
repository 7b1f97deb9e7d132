import ComputerNetwork.Lib.Chains
import ComputerNetwork.Lib.Run
import Mathlib.Data.Finmap

/-!
# The hash table

The chained hash tables that the macros of `mysock_hash.h` declare, as they are linked in memory: an
array of heads, entries that `malloc` allocates and `free` gives back, and the pointer through which a
deletion skips an entry.  `malloc` may return NULL; the assertion behind it then fails.  A key belongs in the table when its hash is an index of the array.
`hashSound_of_run` says that every sequence of calls does what it does to a finite map.
-/

namespace ComputerNetwork.Tcp

open Lib

/-! ## The code -/

/-- The arguments of `HASH_TABLE_DECLARE_EXTENDED`, but for the types. -/
structure TableDecl (κ : Type) where
  hashfn : κ → ℕ → ℤ
  keyequal : κ → κ → Bool
  size : ℕ

/-- `HASH_TABLE_DECLARE` for keys of the type `int`, with `HASH_DEFAULT_HASH_FN` and
`HASH_DEFAULT_KEY_EQUALS`. -/
def hashTableDeclare (size : ℕ) : TableDecl ℤ where
  hashfn key size := key.tmod size
  keyequal a b := a = b
  size := size

/-- `__tbl_entry_t`, but for `next`. -/
structure HashEntry (κ δ : Type) where
  key : κ
  data : δ

/-- `tbl[size]`, with the allocated entries. -/
structure HashTable (κ δ : Type) (size : ℕ) where
  tbl : Fin size → Option ℕ
  mem : Memory (HashEntry κ δ)

inductive HashFault where
  | assertion
  /-- A load or a store through a pointer that leads nowhere. -/
  | invalidPointer
  deriving DecidableEq

/-- A static table. -/
def HashTable.empty {κ δ : Type} {size : ℕ} : HashTable κ δ size where
  tbl := fun _ => none
  mem := ∅

/-- `*e`. -/
def HashTable.load {κ δ : Type} {size : ℕ} (h : HashTable κ δ size) (e : ℕ) :
    Except HashFault (Cell (HashEntry κ δ)) :=
  match h.mem.lookup e with
  | some cell => .ok cell
  | none => .error .invalidPointer

namespace TableDecl

variable {κ δ : Type} (t : TableDecl κ)

/-- The `unsigned int` that `hashfn` gives, and the assertion about it. -/
def ndx (key : κ) : Except HashFault (Fin t.size) :=
  let ndx := (t.hashfn key t.size % 2 ^ 32).toNat
  if inside : ndx < t.size then .ok ⟨ndx, inside⟩ else .error .assertion

/-- The loop over the entries of a bucket: the entry with the key, and the one before it. -/
def search (h : HashTable κ δ t.size) (i : Fin t.size) (key : κ) :
    Except HashFault (Option ℕ × Option ℕ) :=
  match walk h.mem (fun _ e => t.keyequal e.key key) (h.tbl i) with
  | some found => .ok found
  | none => .error .invalidPointer

/-- `_hash_get_entry`.  The loop stops at an entry with the key, so the test behind it changes
nothing. -/
def hashGetEntry (h : HashTable κ δ t.size) (key : κ) : Except HashFault (Option ℕ) := do
  let i ← t.ndx key
  let (_, e) ← t.search h i key
  return e

/-- `_hash_insert`, where `malloc` returns `node`. -/
def hashInsert (h : HashTable κ δ t.size) (key : κ) (data : δ) (node : Option ℕ) :
    Except HashFault (HashTable κ δ t.size) := do
  let i ← t.ndx key
  match node with
  | none => throw .assertion
  | some a =>
    let h' : HashTable κ δ t.size :=
      { tbl := Function.update h.tbl i (some a)
        mem := h.mem.insert a ⟨⟨key, data⟩, h.tbl i⟩ }
    if (← t.hashGetEntry h' key) = some a then return h' else throw .assertion

/-- `_hash_lookup`. -/
def hashLookup (h : HashTable κ δ t.size) (key : κ) : Except HashFault δ := do
  match ← t.hashGetEntry h key with
  | some e => return (← h.load e).val.data
  | none => throw .assertion

/-- `_hash_lookup_ptr`. -/
def hashLookupPtr (null : δ) (h : HashTable κ δ t.size) (key : κ) : Except HashFault δ := do
  match ← t.hashGetEntry h key with
  | some e => return (← h.load e).val.data
  | none => return null

/-- `_hash_entry_exists`. -/
def hashEntryExists (h : HashTable κ δ t.size) (key : κ) : Except HashFault Bool := do
  return (← t.hashGetEntry h key).isSome

/-- `_hash_set_entry`. -/
def hashSetEntry (h : HashTable κ δ t.size) (key : κ) (data : δ) (node : Option ℕ) :
    Except HashFault (HashTable κ δ t.size) := do
  match ← t.hashGetEntry h key with
  | some e =>
    let cell ← h.load e
    return { h with mem := h.mem.insert e { cell with val := { cell.val with data } } }
  | none => t.hashInsert h key data node

/-- `*((e == tbl[ndx]) ? &tbl[ndx] : &prev->next) = e->next`. -/
def skip (h : HashTable κ δ t.size) (i : Fin t.size) (prev : Option ℕ) (e : ℕ) :
    Except HashFault (HashTable κ δ t.size) := do
  let cell ← h.load e
  if h.tbl i = some e then return { h with tbl := Function.update h.tbl i cell.next }
  else
    match prev with
    | none => throw .invalidPointer
    | some b =>
      let before ← h.load b
      return { h with mem := h.mem.insert b { before with next := cell.next } }

/-- `_hash_delete`. -/
def hashDelete (h : HashTable κ δ t.size) (key : κ) : Except HashFault (HashTable κ δ t.size) := do
  let i ← t.ndx key
  let (prev, e) ← t.search h i key
  let h' ← match e with
    | none => pure h
    | some e => do
      let h' ← t.skip h i prev e
      pure { h' with mem := h'.mem.erase e }
  if (← t.hashGetEntry h' key) = none then return h' else throw .assertion

end TableDecl

/-! ## The calls and the map -/

/-- The calls that change a table; `node` is what `malloc` returns, should it be called. -/
inductive HashCall (κ δ : Type) where
  | insert (key : κ) (data : δ) (node : Option ℕ)
  | setEntry (key : κ) (data : δ) (node : Option ℕ)
  | delete (key : κ)
  deriving DecidableEq

namespace HashCall

variable {κ δ : Type}

def key : HashCall κ δ → κ
  | .insert key _ _ => key
  | .setEntry key _ _ => key
  | .delete key => key

def node : HashCall κ δ → Option ℕ
  | .insert _ _ node => node
  | .setEntry _ _ node => node
  | .delete _ => none

def inserts : HashCall κ δ → Bool
  | .insert _ _ _ => true
  | _ => false

/-- What a call does to a finite map. -/
def update [DecidableEq κ] (m : Finmap fun _ : κ => δ) : HashCall κ δ → Finmap fun _ : κ => δ
  | .insert key data _ => m.insert key data
  | .setEntry key data _ => m.insert key data
  | .delete key => m.erase key

end HashCall

def TableDecl.perform {κ δ : Type} (t : TableDecl κ) (h : HashTable κ δ t.size) :
    HashCall κ δ → Except HashFault (HashTable κ δ t.size)
  | .insert key data node => t.hashInsert h key data node
  | .setEntry key data node => t.hashSetEntry h key data node
  | .delete key => t.hashDelete h key

/-- All calls on one table.  A fault ends the process. -/
def TableDecl.machine {κ : Type} (t : TableDecl κ) (δ : Type) :
    Machine (HashTable κ δ t.size) (HashCall κ δ) Unit where
  step h call := ((t.perform h call).toOption).map fun h' => (h', ())

/-- The finite map that the calls make. -/
def mapAfter {κ δ : Type} [DecidableEq κ] (tr : List (HashCall κ δ × Unit)) : Finmap fun _ : κ => δ :=
  tr.foldl (fun m entry => entry.1.update m) ∅

/-- What the callers and `malloc` keep to: a key in the domain `dom`, inserted only where it is not
present, and memory that was free. -/
structure Proper {κ δ : Type} [DecidableEq κ] {size : ℕ} (dom : κ → Prop)
    (tr : List (HashCall κ δ × Unit)) (h : HashTable κ δ size) (call : HashCall κ δ) : Prop where
  valid : dom call.key
  absent : call.inserts = true → call.key ∉ mapAfter tr
  free : ∀ a ∈ call.node, a ∉ h.mem

instance {κ δ : Type} [DecidableEq κ] {size : ℕ} (dom : κ → Prop) [DecidablePred dom]
    (tr : List (HashCall κ δ × Unit)) (h : HashTable κ δ size) (call : HashCall κ δ) :
    Decidable (Proper dom tr h call) :=
  decidable_of_iff (dom call.key ∧ (call.inserts = true → call.key ∉ mapAfter tr) ∧
      ∀ a ∈ call.node, a ∉ h.mem)
    ⟨fun ⟨valid, absent, free⟩ => ⟨valid, absent, free⟩,
      fun ⟨valid, absent, free⟩ => ⟨valid, absent, free⟩⟩

/-- The call allocates an entry. -/
def HashCall.Allocates {κ δ : Type} [DecidableEq κ] (m : Finmap fun _ : κ => δ) : HashCall κ δ → Prop
  | .insert _ _ _ => True
  | .setEntry key _ _ => key ∉ m
  | .delete _ => False

/-- The table after the calls `tr` shows the map that they make, and will do so after every further
call. -/
structure HashSound {κ δ : Type} [DecidableEq κ] (t : TableDecl κ) (dom : κ → Prop)
    (tr : List (HashCall κ δ × Unit)) (h : HashTable κ δ t.size) : Prop where
  lookupPtr : ∀ null key, dom key →
    t.hashLookupPtr null h key = .ok (((mapAfter tr).lookup key).getD null)
  entryExists : ∀ key, dom key → t.hashEntryExists h key = .ok ((mapAfter tr).lookup key).isSome
  lookup : ∀ key data, dom key → (mapAfter tr).lookup key = some data → t.hashLookup h key = .ok data
  performs : ∀ call, Proper dom tr h call → (call.Allocates (mapAfter tr) → call.node ≠ none) →
    ∃ h', t.perform h call = .ok h'
  exhausted : ∀ call, Proper dom tr h call → call.Allocates (mapAfter tr) → call.node = none →
    t.perform h call = .error .assertion
  others : ∀ call h' null key, Proper dom tr h call → t.perform h call = .ok h' → dom key →
    key ≠ call.key → t.hashLookupPtr null h' key = t.hashLookupPtr null h key ∧
      t.hashEntryExists h' key = t.hashEntryExists h key
  unchanged : ∀ key, dom key → key ∉ mapAfter tr → t.perform h (.delete key) = .ok h

/-! ## The walk over a bucket -/

section Search

variable {κ δ : Type} {t : TableDecl κ} {h : HashTable κ δ t.size} {i : Fin t.size} {key : κ}
  {data : δ} {a : ℕ} {l r : List (ℕ × HashEntry κ δ)}

theorem search_absent (equal : ∀ a b, t.keyequal a b = true ↔ a = b)
    (linked : Segment h.mem (h.tbl i) l none) (absent : ∀ c ∈ l, c.2.key ≠ key) :
    ∃ prev, t.search h i key = .ok (prev, none) := by
  have pass : ∀ c ∈ l, t.keyequal c.2.key key = false := fun c member =>
    Bool.eq_false_iff.2 fun same => absent c member ((equal _ _).1 same)
  obtain ⟨prev, walked⟩ := walk_of_forall (fun _ e => t.keyequal e.key key) linked pass
  exact ⟨prev, by rw [TableDecl.search, walked]⟩

theorem search_present (equal : ∀ a b, t.keyequal a b = true ↔ a = b)
    (linked : Segment h.mem (h.tbl i) (l ++ (a, ⟨key, data⟩) :: r) none)
    (before : ∀ c ∈ l, c.2.key ≠ key) :
    t.search h i key = .ok (l.getLast?.map Prod.fst, some a) := by
  have pass : ∀ c ∈ l, t.keyequal c.2.key key = false := fun c member =>
    Bool.eq_false_iff.2 fun same => before c member ((equal _ _).1 same)
  rw [TableDecl.search, walk_of_find (fun _ e => t.keyequal e.key key) linked pass
    ((equal key key).2 rfl)]

theorem hashGetEntry_of_search {prev e : Option ℕ} (hash : t.ndx key = .ok i)
    (found : t.search h i key = .ok (prev, e)) : t.hashGetEntry h key = .ok e := by
  rw [TableDecl.hashGetEntry, hash]
  simp only [bind, Except.bind, found, pure, Except.pure]

/-- The pointer through which an entry is skipped is the one that `unlink` changes. -/
theorem skip_eq (linked : Segment h.mem (h.tbl i) (l ++ (a, ⟨key, data⟩) :: r) none)
    {mem' : Memory (HashEntry κ δ)} {p' : Option ℕ}
    (unlinked : unlink h.mem (h.tbl i) (l.getLast?.map Prod.fst) a = some (mem', p')) :
    t.skip h i (l.getLast?.map Prod.fst) a = .ok ⟨Function.update h.tbl i p', mem'⟩ := by
  obtain ⟨next, found⟩ := linked.lookup (List.mem_append_right l (List.mem_cons_self ..))
  have loaded : h.load a = .ok ⟨⟨key, data⟩, next⟩ := by rw [HashTable.load, found]
  rw [TableDecl.skip, loaded]
  rw [unlink, found] at unlinked
  rcases List.eq_nil_or_concat l with rfl | ⟨l, ⟨b, before⟩, rfl⟩
  · obtain ⟨rfl, rfl⟩ := Prod.mk.inj (Option.some.inj unlinked)
    simp only [bind, Except.bind, if_pos linked.1]
    rfl
  · have notFirst : h.tbl i ≠ some a := by
      have distinct := linked.nodup
      rcases whole : l.concat (b, before) with _ | ⟨⟨c, v⟩, rest⟩
      · simp at whole
      · rw [whole] at linked distinct
        rw [linked.1]
        rintro same
        obtain rfl := Option.some.inj same
        simp at distinct
    rw [List.concat_eq_append] at unlinked ⊢
    simp only [List.getLast?_concat, Option.map_some] at unlinked ⊢
    cases cell : h.mem.lookup b with
    | none => simp [cell] at unlinked
    | some before' =>
      simp only [cell, Option.some.injEq, Prod.mk.injEq] at unlinked
      obtain ⟨rfl, rfl⟩ := unlinked
      simp only [bind, Except.bind, if_neg notFirst, HashTable.load, cell, Function.update_eq_self]
      rfl

end Search

/-! ## The buckets -/

/-- The entries of the buckets are those of the map, each key in the bucket of its hash and once
there. -/
structure Represents {κ δ : Type} [DecidableEq κ] (t : TableDecl κ) (h : HashTable κ δ t.size)
    (chain : Fin t.size → List (ℕ × HashEntry κ δ)) (m : Finmap fun _ : κ => δ) : Prop where
  chains : Chains h.mem h.tbl chain
  placed : ∀ i, ∀ c ∈ chain i, t.ndx c.2.key = .ok i
  distinct : ∀ i, ((chain i).map fun c => c.2.key).Nodup
  entries : ∀ i key data, t.ndx key = .ok i →
    ((∃ a, (a, ⟨key, data⟩) ∈ chain i) ↔ m.lookup key = some data)

section Buckets

variable {κ δ : Type} [DecidableEq κ] {t : TableDecl κ} {h h' : HashTable κ δ t.size}
  {chain : Fin t.size → List (ℕ × HashEntry κ δ)} {m m' : Finmap fun _ : κ => δ}
  {i : Fin t.size} {key : κ} {data data' : δ} {a : ℕ} {l r : List (ℕ × HashEntry κ δ)}

theorem represents_empty : Represents t (.empty : HashTable κ δ t.size) (fun _ => []) ∅ where
  chains := ⟨fun _ => rfl, by simp⟩
  placed := by simp
  distinct := by simp
  entries := by simp

theorem Represents.update (rep : Represents t h chain m) (hash : t.ndx key = .ok i)
    (chains : Chains h'.mem h'.tbl (Function.update chain i l))
    (placed : ∀ c ∈ l, t.ndx c.2.key = .ok i) (distinct : (l.map fun c => c.2.key).Nodup)
    (others : ∀ c, c.2.key ≠ key → (c ∈ l ↔ c ∈ chain i))
    (own : ∀ data, (∃ a, (a, ⟨key, data⟩) ∈ l) ↔ m'.lookup key = some data)
    (same : ∀ key' ≠ key, m'.lookup key' = m.lookup key') :
    Represents t h' (Function.update chain i l) m' := by
  refine ⟨chains, fun j => ?_, fun j => ?_, fun j key' data hash' => ?_⟩
  · by_cases here : j = i
    · rw [here, Function.update_self]
      exact placed
    · rw [Function.update_of_ne here]
      exact rep.placed j
  · by_cases here : j = i
    · rw [here, Function.update_self]
      exact distinct
    · rw [Function.update_of_ne here]
      exact rep.distinct j
  · by_cases this : key' = key
    · subst this
      obtain rfl : i = j := Except.ok.inj (hash.symm.trans hash')
      rw [Function.update_self]
      exact own data
    · rw [same key' this, ← rep.entries j key' data hash']
      by_cases here : j = i
      · rw [here, Function.update_self]
        exact exists_congr fun a => others _ this
      · rw [Function.update_of_ne here]

theorem Represents.split (rep : Represents t h chain m) (hash : t.ndx key = .ok i)
    (present : m.lookup key = some data) :
    ∃ l a r, chain i = l ++ (a, ⟨key, data⟩) :: r ∧ ∀ c ∈ l ++ r, c.2.key ≠ key := by
  obtain ⟨a, member⟩ := (rep.entries i key data hash).2 present
  obtain ⟨l, r, eq⟩ := List.append_of_mem member
  refine ⟨l, a, r, eq, fun c inside same => ?_⟩
  have distinct := rep.distinct i
  rw [eq, List.map_append, List.map_cons, List.nodup_middle, List.nodup_cons,
    ← List.map_append] at distinct
  exact distinct.1 (List.mem_map.2 ⟨c, inside, same⟩)

omit [DecidableEq κ] in
theorem mem_replaced {new : Option δ} {c : ℕ × HashEntry κ δ} :
    c ∈ l ++ ((new.map fun data => (a, HashEntry.mk key data)).toList ++ r) ↔
      c ∈ l ++ r ∨ ∃ data, new = some data ∧ c = (a, ⟨key, data⟩) := by
  cases new with
  | none => simp
  | some data' =>
    simp only [Option.map_some, Option.toList_some, List.singleton_append, List.mem_append,
      List.mem_cons, Option.some.injEq, exists_eq_left']
    tauto

theorem Represents.replace (rep : Represents t h chain m) (hash : t.ndx key = .ok i)
    (eq : chain i = l ++ (a, ⟨key, data⟩) :: r) (others : ∀ c ∈ l ++ r, c.2.key ≠ key)
    (new : Option δ)
    (chains : Chains h'.mem h'.tbl (Function.update chain i
      (l ++ ((new.map fun data => (a, HashEntry.mk key data)).toList ++ r))))
    (own : m'.lookup key = new) (same : ∀ key' ≠ key, m'.lookup key' = m.lookup key') :
    Represents t h' (Function.update chain i
      (l ++ ((new.map fun data => (a, HashEntry.mk key data)).toList ++ r))) m' := by
  apply rep.update hash chains
  · intro c member
    rcases mem_replaced.1 member with old | ⟨data', -, rfl⟩
    · refine rep.placed i c ?_
      rw [eq, List.mem_append, List.mem_cons]
      exact (List.mem_append.1 old).imp_right .inr
    · exact hash
  · have distinct := rep.distinct i
    rw [eq, List.map_append, List.map_cons] at distinct
    cases new with
    | none =>
      have rest := (List.nodup_cons.1 (List.nodup_middle.1 distinct)).2
      rwa [← List.map_append] at rest
    | some data' =>
      show ((l ++ (a, HashEntry.mk key data') :: r).map fun c => c.2.key).Nodup
      rwa [List.map_append, List.map_cons]
  · intro c other
    rw [mem_replaced, eq, List.mem_append, List.mem_append, List.mem_cons]
    constructor
    · rintro ((front | back) | ⟨data', -, rfl⟩)
      · exact .inl front
      · exact .inr (.inr back)
      · exact absurd rfl other
    · rintro (front | rfl | back)
      · exact .inl (.inl front)
      · exact absurd rfl other
      · exact .inl (.inr back)
  · intro data'
    rw [own]
    constructor
    · rintro ⟨b, member⟩
      rcases mem_replaced.1 member with old | ⟨data'', some_, same'⟩
      · exact absurd rfl (others _ old)
      · rw [some_, (HashEntry.mk.inj (Prod.mk.inj same').2).2]
    · intro some_
      exact ⟨a, mem_replaced.2 (.inr ⟨data', some_, rfl⟩)⟩
  · exact same

theorem Represents.not_mem (rep : Represents t h chain m) (hash : t.ndx key = .ok i)
    (absent : key ∉ m) : ∀ c ∈ chain i, c.2.key ≠ key := by
  rintro ⟨a, ⟨key', data⟩⟩ member rfl
  exact absent (Finmap.mem_iff.2 ⟨data, (rep.entries i _ data hash).1 ⟨a, member⟩⟩)

theorem Represents.push (rep : Represents t h chain m) (hash : t.ndx key = .ok i) (absent : key ∉ m)
    (fresh : a ∉ h.mem) (data : δ) :
    Represents t ⟨Function.update h.tbl i (some a), h.mem.insert a ⟨⟨key, data⟩, h.tbl i⟩⟩
      (Function.update chain i ((a, ⟨key, data⟩) :: chain i)) (m.insert key data) := by
  have none_ := rep.not_mem hash absent
  apply rep.update hash (rep.chains.push i fresh ⟨key, data⟩)
  · intro c member
    rcases List.mem_cons.1 member with rfl | old
    · exact hash
    · exact rep.placed i c old
  · rw [List.map_cons, List.nodup_cons]
    refine ⟨fun again => ?_, rep.distinct i⟩
    obtain ⟨c, member, same⟩ := List.mem_map.1 again
    exact none_ c member same
  · intro c other
    rw [List.mem_cons, or_iff_right]
    rintro rfl
    exact other rfl
  · intro data'
    rw [Finmap.lookup_insert]
    constructor
    · rintro ⟨b, member⟩
      rcases List.mem_cons.1 member with new | old
      · rw [(HashEntry.mk.inj (Prod.mk.inj new).2).2]
      · exact absurd rfl (none_ _ old)
    · intro same
      exact ⟨a, by rw [Option.some.inj same]; exact List.mem_cons_self ..⟩
  · intro key' other
    exact Finmap.lookup_insert_of_ne m other

/-! ## The functions -/

variable (equal : ∀ a b, t.keyequal a b = true ↔ a = b)

include equal

theorem Represents.hashGetEntry (rep : Represents t h chain m) (hash : t.ndx key = .ok i) :
    (m.lookup key = none ∧ t.hashGetEntry h key = .ok none) ∨
      ∃ data a next, m.lookup key = some data ∧ t.hashGetEntry h key = .ok (some a) ∧
        h.load a = .ok ⟨⟨key, data⟩, next⟩ := by
  cases known : m.lookup key with
  | none =>
    obtain ⟨prev, found⟩ := search_absent equal (rep.chains.segment i)
      (rep.not_mem hash (Finmap.lookup_eq_none.1 known))
    exact .inl ⟨rfl, hashGetEntry_of_search hash found⟩
  | some data =>
    obtain ⟨l, a, r, eq, others⟩ := rep.split hash known
    have linked := rep.chains.segment i
    rw [eq] at linked
    obtain ⟨next, cell⟩ := linked.lookup (List.mem_append_right l (List.mem_cons_self ..))
    refine .inr ⟨data, a, next, rfl, ?_, by rw [HashTable.load, cell]⟩
    exact hashGetEntry_of_search hash (search_present equal linked fun c member =>
      others c (List.mem_append_left _ member))

theorem Represents.hashLookupPtr (rep : Represents t h chain m) (hash : t.ndx key = .ok i) (null : δ) :
    t.hashLookupPtr null h key = .ok ((m.lookup key).getD null) := by
  rw [TableDecl.hashLookupPtr]
  rcases rep.hashGetEntry equal hash with ⟨known, got⟩ | ⟨data, a, next, known, got, loaded⟩
  · rw [known, got]
    rfl
  · rw [known, got]
    simp only [bind, Except.bind, loaded]
    rfl

theorem Represents.hashEntryExists (rep : Represents t h chain m) (hash : t.ndx key = .ok i) :
    t.hashEntryExists h key = .ok (m.lookup key).isSome := by
  rw [TableDecl.hashEntryExists]
  rcases rep.hashGetEntry equal hash with ⟨known, got⟩ | ⟨data, a, next, known, got, -⟩
  · rw [known, got]
    rfl
  · rw [known, got]
    rfl

theorem Represents.hashLookup (rep : Represents t h chain m) (hash : t.ndx key = .ok i)
    (present : m.lookup key = some data) : t.hashLookup h key = .ok data := by
  rw [TableDecl.hashLookup]
  rcases rep.hashGetEntry equal hash with ⟨known, -⟩ | ⟨data', a, next, known, got, loaded⟩
  · rw [present] at known
    cases known
  · obtain rfl := Option.some.inj (present.symm.trans known)
    rw [got]
    simp only [bind, Except.bind, loaded]
    rfl

/-- Insertion finds the entry that it has put in front. -/
theorem Represents.hashInsert (rep : Represents t h chain m) (hash : t.ndx key = .ok i)
    (absent : key ∉ m) (fresh : a ∉ h.mem) (data : δ) :
    ∃ h' chain', t.hashInsert h key data (some a) = .ok h' ∧
      Represents t h' chain' (m.insert key data) := by
  have rep' := rep.push hash absent fresh data
  have linked := rep'.chains.segment i
  rw [Function.update_self i _ chain, ← List.nil_append (_ :: _)] at linked
  have got := hashGetEntry_of_search hash (search_present equal linked (by simp))
  refine ⟨_, _, ?_, rep'⟩
  rw [TableDecl.hashInsert, hash]
  simp only [bind, Except.bind, got, if_true, pure, Except.pure]

/-- The entry of a key that is present takes the new data. -/
theorem Represents.hashSetEntry (rep : Represents t h chain m) (hash : t.ndx key = .ok i)
    (present : m.lookup key = some data) (data' : δ) (node : Option ℕ) :
    ∃ h' chain', t.hashSetEntry h key data' node = .ok h' ∧
      Represents t h' chain' (m.insert key data') := by
  obtain ⟨l, a, r, eq, others⟩ := rep.split hash present
  have linked := rep.chains.segment i
  rw [eq] at linked
  have got := hashGetEntry_of_search hash (search_present equal linked fun c member =>
    others c (List.mem_append_left _ member))
  obtain ⟨next, found⟩ := linked.lookup (List.mem_append_right l (List.mem_cons_self ..))
  have loaded : h.load a = .ok ⟨⟨key, data⟩, next⟩ := by rw [HashTable.load, found]
  have rep' : Represents t ⟨h.tbl, h.mem.insert a ⟨⟨key, data'⟩, next⟩⟩
      (Function.update chain i (l ++ (a, ⟨key, data'⟩) :: r)) (m.insert key data') :=
    rep.replace hash eq others (some data') (rep.chains.store eq found ⟨key, data'⟩)
      (Finmap.lookup_insert m) fun key' other => Finmap.lookup_insert_of_ne m other
  refine ⟨_, _, ?_, rep'⟩
  rw [TableDecl.hashSetEntry, got]
  simp only [bind, Except.bind, loaded, pure, Except.pure]

/-- Deleting a key that is not present leaves the table as it is. -/
theorem Represents.hashDelete_absent (rep : Represents t h chain m) (hash : t.ndx key = .ok i)
    (absent : key ∉ m) : t.hashDelete h key = .ok h := by
  obtain ⟨prev, found⟩ := search_absent equal (rep.chains.segment i) (rep.not_mem hash absent)
  have got := hashGetEntry_of_search hash found
  rw [TableDecl.hashDelete, hash]
  simp only [bind, Except.bind, found, pure, Except.pure, got, if_true]

/-- The entry of a key that is present is skipped and freed. -/
theorem Represents.hashDelete (rep : Represents t h chain m) (hash : t.ndx key = .ok i)
    (present : m.lookup key = some data) :
    ∃ h' chain', t.hashDelete h key = .ok h' ∧ Represents t h' chain' (m.erase key) := by
  obtain ⟨l, a, r, eq, others⟩ := rep.split hash present
  have linked := rep.chains.segment i
  rw [eq] at linked
  have found := search_present equal linked fun c member => others c (List.mem_append_left _ member)
  obtain ⟨mem', p', unlinked, removed⟩ := rep.chains.remove eq
  have skipped := skip_eq linked unlinked
  have rep' : Represents t ⟨Function.update h.tbl i p', mem'.erase a⟩
      (Function.update chain i (l ++ r)) (m.erase key) :=
    rep.replace hash eq others none removed (Finmap.lookup_erase key m)
      fun key' other => Finmap.lookup_erase_ne other
  have gone := (rep'.hashGetEntry equal hash).resolve_right (by
    rintro ⟨data', -, -, still, -⟩
    rw [Finmap.lookup_erase] at still
    cases still)
  refine ⟨_, _, ?_, rep'⟩
  rw [TableDecl.hashDelete, hash]
  simp only [bind, Except.bind, found, skipped, pure, Except.pure, gone.2, if_true]

end Buckets

/-! ## Whole runs -/

theorem erase_of_not_mem {κ δ : Type} [DecidableEq κ] {m : Finmap fun _ : κ => δ} {key : κ}
    (absent : key ∉ m) : m.erase key = m := by
  apply Finmap.ext_lookup
  intro key'
  by_cases same : key' = key
  · rw [same, Finmap.lookup_erase, Finmap.lookup_eq_none.2 absent]
  · exact Finmap.lookup_erase_ne same

theorem mapAfter_snoc {κ δ : Type} [DecidableEq κ] (tr : List (HashCall κ δ × Unit))
    (entry : HashCall κ δ × Unit) : mapAfter (tr ++ [entry]) = entry.1.update (mapAfter tr) := by
  rw [mapAfter, List.foldl_append]
  rfl

theorem perform_of_step {κ δ : Type} {t : TableDecl κ} {h h' : HashTable κ δ t.size}
    {call : HashCall κ δ} {o : Unit} (st : (t.machine δ).step h call = some (h', o)) :
    t.perform h call = .ok h' := by
  obtain ⟨_, performed, same⟩ := Option.map_eq_some_iff.1 st
  rw [(Prod.mk.inj same).1] at performed
  cases result : t.perform h call with
  | error fault =>
    rw [result] at performed
    cases performed
  | ok h'' =>
    rw [result] at performed
    rw [Option.some.inj performed]

theorem HashCall.lookup_update_ne {κ δ : Type} [DecidableEq κ] (m : Finmap fun _ : κ => δ)
    {call : HashCall κ δ} {key : κ} (other : key ≠ call.key) :
    (call.update m).lookup key = m.lookup key := by
  cases call with
  | insert key' data node => exact Finmap.lookup_insert_of_ne m other
  | setEntry key' data node => exact Finmap.lookup_insert_of_ne m other
  | delete key' => exact Finmap.lookup_erase_ne other

section Run

variable {κ δ : Type} [DecidableEq κ] {t : TableDecl κ} {dom : κ → Prop}
  {tr : List (HashCall κ δ × Unit)} {h h' : HashTable κ δ t.size}
  {chain : Fin t.size → List (ℕ × HashEntry κ δ)} {m : Finmap fun _ : κ => δ} {call : HashCall κ δ}
  {i : Fin t.size}

variable (equal : ∀ a b, t.keyequal a b = true ↔ a = b)

include equal

/-- A call does to the table what it does to the map, where it gets the memory it needs. -/
theorem Represents.perform (rep : Represents t h chain m) (hash : t.ndx call.key = .ok i)
    (absent : call.inserts = true → call.key ∉ m) (free : ∀ a ∈ call.node, a ∉ h.mem)
    (memory : call.Allocates m → call.node ≠ none) :
    ∃ h' chain', t.perform h call = .ok h' ∧ Represents t h' chain' (call.update m) := by
  cases call with
  | insert key data node =>
    obtain ⟨a, rfl⟩ := Option.ne_none_iff_exists'.1 (memory trivial)
    exact rep.hashInsert equal hash (absent rfl) (free a rfl) data
  | setEntry key data node =>
    change t.ndx key = .ok i at hash
    rcases rep.hashGetEntry equal hash with ⟨known, got⟩ | ⟨old, a, next, known, -, -⟩
    · have missing := Finmap.lookup_eq_none.1 known
      obtain ⟨a, rfl⟩ := Option.ne_none_iff_exists'.1 (memory missing)
      obtain ⟨h', chain', inserted, rep'⟩ := rep.hashInsert equal hash missing (free a rfl) data
      refine ⟨h', chain', ?_, rep'⟩
      rw [TableDecl.perform, TableDecl.hashSetEntry, got]
      exact inserted
    · exact rep.hashSetEntry equal hash known data node
  | delete key =>
    change t.ndx key = .ok i at hash
    cases known : m.lookup key with
    | some old => exact rep.hashDelete equal hash known
    | none =>
      have missing := Finmap.lookup_eq_none.1 known
      refine ⟨h, chain, rep.hashDelete_absent equal hash missing, ?_⟩
      rw [HashCall.update, erase_of_not_mem missing]
      exact rep

/-- Without memory for a new entry the assertion about it fails. -/
theorem Represents.perform_exhausted (rep : Represents t h chain m) (hash : t.ndx call.key = .ok i)
    (needs : call.Allocates m) (none_ : call.node = none) : t.perform h call = .error .assertion := by
  cases call with
  | insert key data node =>
    obtain rfl : node = none := none_
    change t.ndx key = .ok i at hash
    rw [TableDecl.perform, TableDecl.hashInsert, hash]
    rfl
  | setEntry key data node =>
    obtain rfl : node = none := none_
    change t.ndx key = .ok i at hash
    have known : m.lookup key = none := Finmap.lookup_eq_none.2 needs
    rcases rep.hashGetEntry equal hash with ⟨-, got⟩ | ⟨old, a, next, present, -, -⟩
    · rw [TableDecl.perform, TableDecl.hashSetEntry, got]
      simp only [bind, Except.bind, TableDecl.hashInsert, hash]
      rfl
    · rw [known] at present
      cases present
  | delete key => exact needs.elim

/-- A call that does not fault has had the memory it needs. -/
theorem Represents.perform_ok (rep : Represents t h chain m) (hash : t.ndx call.key = .ok i)
    (absent : call.inserts = true → call.key ∉ m) (free : ∀ a ∈ call.node, a ∉ h.mem)
    (performed : t.perform h call = .ok h') : ∃ chain', Represents t h' chain' (call.update m) := by
  have memory : call.Allocates m → call.node ≠ none := by
    intro needs none_
    rw [rep.perform_exhausted equal hash needs none_] at performed
    cases performed
  obtain ⟨h'', chain', performed', rep'⟩ := rep.perform equal hash absent free memory
  obtain rfl := Except.ok.inj (performed'.symm.trans performed)
  exact ⟨chain', rep'⟩

variable (hashes : ∀ key, dom key → ∃ i, t.ndx key = .ok i)

include hashes

/-- The buckets hold the entries of the map that the calls make. -/
theorem represents_of_run (run : (t.machine δ).Runs (Proper dom) .empty tr h) :
    ∃ chain, Represents t h chain (mapAfter tr) := by
  refine run.invariant (I := fun tr h => ∃ chain, Represents t h chain (mapAfter tr))
    ⟨_, represents_empty⟩ fun tr h call o h' _ ⟨chain, rep⟩ proper st => ?_
  obtain ⟨i, hash⟩ := hashes _ proper.valid
  rw [mapAfter_snoc]
  exact rep.perform_ok equal hash proper.absent proper.free (perform_of_step st)

theorem Represents.hashSound (rep : Represents t h chain (mapAfter tr)) :
    HashSound t dom tr h where
  lookupPtr null key valid :=
    have ⟨_, hash⟩ := hashes key valid
    rep.hashLookupPtr equal hash null
  entryExists key valid :=
    have ⟨_, hash⟩ := hashes key valid
    rep.hashEntryExists equal hash
  lookup key data valid present :=
    have ⟨_, hash⟩ := hashes key valid
    rep.hashLookup equal hash present
  performs call proper memory := by
    obtain ⟨i, hash⟩ := hashes _ proper.valid
    obtain ⟨h', -, performed, -⟩ := rep.perform equal hash proper.absent proper.free memory
    exact ⟨h', performed⟩
  exhausted call proper needs none_ := by
    obtain ⟨i, hash⟩ := hashes _ proper.valid
    exact rep.perform_exhausted equal hash needs none_
  others call h' null key proper performed valid other := by
    obtain ⟨i, hash⟩ := hashes _ proper.valid
    obtain ⟨j, hash'⟩ := hashes key valid
    obtain ⟨chain', rep'⟩ := rep.perform_ok equal hash proper.absent proper.free performed
    have same := HashCall.lookup_update_ne (mapAfter tr) other
    constructor
    · rw [rep'.hashLookupPtr equal hash', rep.hashLookupPtr equal hash', same]
    · rw [rep'.hashEntryExists equal hash', rep.hashEntryExists equal hash', same]
  unchanged key valid absent :=
    have ⟨_, hash⟩ := hashes key valid
    rep.hashDelete_absent equal hash absent

end Run

/-- Where no NULL is stored, the question that `_mysock_set_backlog` asks first makes its insertion a
proper one. -/
theorem HashSound.proper_insert {κ δ : Type} [DecidableEq κ] {t : TableDecl κ} {dom : κ → Prop}
    {tr : List (HashCall κ δ × Unit)} {h : HashTable κ δ t.size} (sound : HashSound t dom tr h)
    {null : δ} {key : κ} (stored : (mapAfter tr).lookup key ≠ some null) (valid : dom key)
    (missing : t.hashLookupPtr null h key = .ok null) (data : δ) {node : Option ℕ}
    (free : ∀ a ∈ node, a ∉ h.mem) : Proper dom tr h (.insert key data node) where
  valid := valid
  absent _ := by
    rw [sound.lookupPtr null key valid] at missing
    cases known : (mapAfter tr).lookup key with
    | none => exact Finmap.lookup_eq_none.1 known
    | some old =>
      rw [known] at missing stored
      exact absurd (congrArg some (Except.ok.inj missing)) stored
  free := free

/-! ## Non-negative integers -/

theorem hashTableDeclare_ndx {size : ℕ} (pos : 0 < size) {key : ℤ} (valid : 0 ≤ key) :
    ∃ i, (hashTableDeclare size).ndx key = .ok i := by
  have inside : (key.tmod size % 2 ^ 32).toNat < size := by
    have below : key % size < size := Int.emod_lt_of_pos key (by omega)
    have nonneg : 0 ≤ key % size := Int.emod_nonneg key (by omega)
    rw [Int.tmod_eq_emod_of_nonneg valid]
    omega
  exact ⟨⟨_, inside⟩, dif_pos inside⟩

/-- A table of the size that is declared is a finite map: the lookups agree with it, no call changes
what is found under another key, and the assertions hold as long as there is memory. -/
theorem hashSound_of_run {δ : Type} {size : ℕ} (pos : 0 < size) {tr : List (HashCall ℤ δ × Unit)}
    {h : HashTable ℤ δ size}
    (run : ((hashTableDeclare size).machine δ).Runs (Proper (0 ≤ ·)) .empty tr h) :
    HashSound (hashTableDeclare size) (0 ≤ ·) tr h := by
  have equal : ∀ a b, (hashTableDeclare size).keyequal a b = true ↔ a = b := fun a b =>
    decide_eq_true_iff
  have hashes : ∀ key : ℤ, 0 ≤ key → ∃ i, (hashTableDeclare size).ndx key = .ok i := fun key valid =>
    hashTableDeclare_ndx pos valid
  obtain ⟨chain, rep⟩ := represents_of_run equal hashes run
  exact rep.hashSound equal hashes

/-- The keys 1 and 3 share a bucket; 1 is deleted behind 3, and the entry that was freed is allocated
for 5. -/
theorem hashSound_of_run_colliding : ∃ h : HashTable ℤ ℕ 2,
    HashSound (hashTableDeclare 2) (0 ≤ ·)
      [(.insert 1 10 (some 0), ()), (.insert 3 30 (some 1), ()), (.setEntry 1 11 none, ()),
        (.delete 1, ()), (.setEntry 5 50 (some 0), ())] h := by
  obtain ⟨tr, h, run, rfl⟩ := Machine.Runs.exists_of_exec (M := (hashTableDeclare 2).machine ℕ)
    (i := .empty) (C := fun tr h call => decide (Proper (0 ≤ ·) tr h call))
    (P := fun tr _ => tr = [(.insert 1 10 (some 0), ()), (.insert 3 30 (some 1), ()),
      (.setEntry 1 11 none, ()), (.delete 1, ()), (.setEntry 5 50 (some 0), ())])
    [.insert 1 10 (some 0), .insert 3 30 (some 1), .setEntry 1 11 none, .delete 1,
      .setEntry 5 50 (some 0)] (by decide +kernel)
  exact ⟨h, hashSound_of_run (by decide) (run.mono fun _ _ _ proper => of_decide_eq_true proper)⟩

/-- The assertion on the memory for an entry fails when there is none. -/
theorem not_performs_exhausted : ¬ ∀ (tr : List (HashCall ℤ ℕ × Unit)) (h : HashTable ℤ ℕ 64),
    ((hashTableDeclare 64).machine ℕ).Runs (Proper (0 ≤ ·)) .empty tr h →
    ∀ call, Proper (0 ≤ ·) tr h call → ∃ h', (hashTableDeclare 64).perform h call = .ok h' := by
  intro performs
  have proper : Proper (0 ≤ ·) [] (.empty : HashTable ℤ ℕ 64) (.insert 3 7 none) := by decide
  obtain ⟨h', performed⟩ := performs [] .empty .nil _ proper
  cases performed

end ComputerNetwork.Tcp
