import Mathlib.Data.List.Basic
import Mathlib.Data.List.Nodup
import Mathlib.Data.List.Perm.Subperm
import Std.Data.String.ToInt

/-!
# Key files

Groups of keys with text values, and integers and strings stored in them. How values are
written as text is a parameter; all that is known of it is that what was written is read
back. Nothing here is about a program.
-/

/-- How integers and strings are written as text and read back. -/
structure KeyFileFormat where
  ofInteger : Int32 → String
  toInteger : String → Option Int32
  ofString : String → String
  toString : String → Option String
  toInteger_ofInteger : ∀ v, toInteger (ofInteger v) = some v
  toString_ofString : ∀ s, toString (ofString s) = some s

/-- Decimal integers and verbatim strings. -/
def KeyFileFormat.decimal : KeyFileFormat where
  ofInteger v := v.toInt.repr
  toInteger s := s.toInt?.map Int32.ofInt
  ofString s := s
  toString s := some s
  toInteger_ofInteger v := by simp
  toString_ofString _ := rfl

/-- The keys of a file with their text, the last value given to a key first. -/
structure KeyFile where
  entries : List ((String × String) × String)

namespace KeyFile

def empty : KeyFile := ⟨[]⟩

/-- The text of a key. -/
def lookup (kf : KeyFile) (group key : String) : Option String := kf.entries.lookup (group, key)

def set (kf : KeyFile) (group key text : String) : KeyFile := ⟨((group, key), text) :: kf.entries⟩

def hasKey (kf : KeyFile) (group key : String) : Bool := (kf.lookup group key).isSome

theorem lookup_empty (group key : String) : empty.lookup group key = none := rfl

theorem lookup_set (kf : KeyFile) (group key text group' key' : String) :
    (kf.set group key text).lookup group' key' =
      if group' = group ∧ key' = key then some text else kf.lookup group' key' := by
  by_cases h : group' = group ∧ key' = key
  · simp [lookup, set, h]
  · have hne : ((group', key') == (group, key)) = false := by simpa using h
    simp [lookup, set, List.lookup_cons, h, hne]

theorem mem_of_hasKey {kf : KeyFile} {group key : String} (h : kf.hasKey group key = true) :
    (group, key) ∈ kf.entries.map Prod.fst := by
  obtain ⟨text, hmem⟩ : ∃ text, ((group, key), text) ∈ kf.entries := by
    simpa [hasKey, lookup] using h
  exact List.mem_map.mpr ⟨_, hmem, rfl⟩

/-- Distinct keys that are all present are no more than the entries. -/
theorem length_le_of_hasKey {kf : KeyFile} {group : String} {keys : List String} (hnodup : keys.Nodup)
    (h : ∀ key ∈ keys, kf.hasKey group key = true) : keys.length ≤ kf.entries.length := by
  have hmap : (keys.map fun key => (group, key)).Nodup :=
    hnodup.map fun _ _ heq => (Prod.mk.inj heq).2
  have hsub : (keys.map fun key => (group, key)) ⊆ kf.entries.map Prod.fst := by
    intro p hp
    obtain ⟨key, hkey, rfl⟩ := List.mem_map.mp hp
    exact mem_of_hasKey (h key hkey)
  simpa using (hmap.subperm hsub).length_le

variable (fmt : KeyFileFormat)

/-- An absent or unreadable integer is zero. -/
def getInteger (kf : KeyFile) (group key : String) : Int32 :=
  ((kf.lookup group key).bind fmt.toInteger).getD 0

def getString (kf : KeyFile) (group key : String) : Option String :=
  (kf.lookup group key).bind fmt.toString

def setInteger (kf : KeyFile) (group key : String) (v : Int32) : KeyFile :=
  kf.set group key (fmt.ofInteger v)

def setString (kf : KeyFile) (group key : String) (s : String) : KeyFile :=
  kf.set group key (fmt.ofString s)

variable {fmt}

theorem getInteger_of_lookup {kf : KeyFile} {group key : String} {v : Int32}
    (h : kf.lookup group key = some (fmt.ofInteger v)) : kf.getInteger fmt group key = v := by
  simp [getInteger, h, fmt.toInteger_ofInteger]

theorem getString_of_lookup {kf : KeyFile} {group key : String} {s : Option String}
    (h : kf.lookup group key = s.map fmt.ofString) : kf.getString fmt group key = s := by
  cases s <;> simp [getString, h, fmt.toString_ofString]

end KeyFile
