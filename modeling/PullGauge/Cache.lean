import PullGauge.Text.Basic

/-!
# A bounded cache with expiring entries

Entries stand in the order in which their keys were last stored. An entry may have a time
to live and is dropped when it is read after that; when the cache is full, storing under
a new key drops the entry that stands first. A stored absence takes its place like any
value and reads as a miss. Time is whatever can be added and compared.

`keys` is the view of a cache that `keys_set`, `keys_erase` and `keys_clear` speak of, and
`size_set_le` says that storing never exceeds the capacity.
-/

namespace PullGauge

structure Cache.Entry (T V : Type) where
  key : Text
  data : Option V
  stored : T
  /-- How long it may be read; without end if there is none. -/
  life : Option T

structure Cache (T V : Type) where
  capacity : Nat
  entries : List (Cache.Entry T V)

namespace Cache

variable {T V : Type}

def make? (capacity : Int) : Option (Cache T V) :=
  if 1 ≤ capacity then some ⟨capacity.toNat, []⟩ else none

def keys (c : Cache T V) : List Text := c.entries.map Entry.key

def size (c : Cache T V) : Nat := c.entries.length

def find? (c : Cache T V) (key : Text) : Option (Entry T V) :=
  c.entries.find? fun e => e.key == key

def hasKey (c : Cache T V) (key : Text) : Bool := (c.find? key).isSome

theorem hasKey_iff (c : Cache T V) (key : Text) : c.hasKey key = true ↔ key ∈ c.keys := by
  simp [hasKey, find?, keys]

@[simp] theorem length_keys (c : Cache T V) : c.keys.length = c.size := List.length_map _

def erase (c : Cache T V) (key : Text) : Cache T V :=
  { c with entries := c.entries.filter fun e => e.key != key }

theorem keys_erase (c : Cache T V) (key : Text) :
    (c.erase key).keys = c.keys.filter (· != key) := by
  simp [keys, erase, List.filter_map, Function.comp_def]

theorem size_erase_lt {c : Cache T V} {key : Text} (h : c.hasKey key = true) :
    (c.erase key).size < c.size := by
  obtain ⟨e, he, hek⟩ := List.mem_map.1 ((hasKey_iff c key).1 h)
  exact List.length_filter_lt_length_iff_exists.2 ⟨e, he, by simp [hek]⟩

def evicted? (c : Cache T V) (key : Text) : Option Text :=
  if c.hasKey key || decide (c.entries.length < c.capacity) then none
  else c.keys.head?

/-- Stores a value under a key, behind all other entries. -/
def set (c : Cache T V) (now : T) (key : Text) (data : Option V) (life : Option T) : Cache T V :=
  let kept :=
    if c.hasKey key then (c.erase key).entries
    else if c.entries.length < c.capacity then c.entries
    else c.entries.drop 1
  { c with entries := kept ++ [⟨key, data, now, life⟩] }

theorem keys_set (c : Cache T V) (now : T) (key : Text) (data : Option V) (life : Option T) :
    (c.set now key data life).keys =
      (if c.hasKey key then c.keys.filter (· != key)
        else if c.size < c.capacity then c.keys else c.keys.drop 1) ++ [key] := by
  rw [← keys_erase, keys, set, List.map_append]
  congr 1
  split
  · rfl
  · rw [size]
    split
    · rfl
    · rw [keys, List.map_drop]

theorem size_set_le {c : Cache T V} (h : c.size ≤ c.capacity) (room : 1 ≤ c.capacity) (now : T)
    (key : Text) (data : Option V) (life : Option T) :
    (c.set now key data life).size ≤ c.capacity := by
  rw [← length_keys, keys_set, ← keys_erase, List.length_append, List.length_singleton]
  split
  · have := size_erase_lt ‹c.hasKey key = true›
    rw [length_keys]
    omega
  · split
    · rw [length_keys]
      omega
    · rw [List.length_drop, length_keys]
      omega

def clear (c : Cache T V) : Cache T V := { c with entries := [] }

theorem keys_clear (c : Cache T V) : c.clear.keys = [] := rfl

variable [Add T] [LT T] [DecidableLT T]

def Entry.isExpired (e : Entry T V) (now : T) : Bool :=
  match e.life with
  | none => false
  | some life => decide (e.stored + life < now)

def get (c : Cache T V) (now : T) (key : Text) : Option V × Cache T V :=
  match c.find? key with
  | none => (none, c)
  | some e => if e.isExpired now then (none, c.erase key) else (e.data, c)

theorem get_snd (c : Cache T V) (now : T) (key : Text) :
    (c.get now key).2 = c ∨ (c.get now key).2 = c.erase key := by
  unfold get
  split
  · exact .inl rfl
  · split
    · exact .inr rfl
    · exact .inl rfl

def contains (c : Cache T V) (now : T) (key : Text) : Bool × Cache T V :=
  let (data, c) := c.get now key
  (data.isSome, c)

end Cache

end PullGauge
