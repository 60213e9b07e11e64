import OrgAlign.Number.Binary64

/-!
# Document values

What a configuration file says, apart from its spelling: the tree of scalars, sequences and
mappings that JSON and YAML share. Mappings are entry lists in document order and their keys may
be any value.

Two keys clash when they are the same value up to the order of entries in mapping keys, the sign
of zero and the payload of NaN; `Value.distinctKeys` says that no mapping inside a value has
clashing keys.
-/

namespace OrgAlign

/-- A document value. -/
inductive Value
  | null
  | bool (b : Bool)
  | int (n : Int)
  | float (x : Binary64)
  | str (s : String)
  | seq (items : List Value)
  | map (entries : List (Value × Value))
deriving Repr, Inhabited

namespace Value

/-! ### Equality -/

mutual

/-- Equality of values as a test. -/
def eqb : Value → Value → Bool
  | null, null => true
  | bool a, bool b => a == b
  | int a, int b => a == b
  | float a, float b => a == b
  | str a, str b => a == b
  | seq as, seq bs => eqbItems as bs
  | map as, map bs => eqbEntries as bs
  | _, _ => false

/-- Equality of item lists. -/
def eqbItems : List Value → List Value → Bool
  | [], [] => true
  | a :: as, b :: bs => eqb a b && eqbItems as bs
  | _, _ => false

/-- Equality of entry lists, in order. -/
def eqbEntries : List (Value × Value) → List (Value × Value) → Bool
  | [], [] => true
  | (k, v) :: as, (l, w) :: bs => eqb k l && eqb v w && eqbEntries as bs
  | _, _ => false

end

mutual

theorem eq_of_eqb : ∀ {a b : Value}, eqb a b = true → a = b
  | null, b, h => by cases b <;> simp_all [eqb]
  | bool _, b, h => by cases b <;> simp_all [eqb]
  | int _, b, h => by cases b <;> simp_all [eqb]
  | float _, b, h => by cases b <;> simp_all [eqb]
  | str _, b, h => by cases b <;> simp_all [eqb]
  | seq as, b, h => by
    cases b <;> simp only [eqb, Bool.false_eq_true] at h
    rw [eq_of_eqbItems h]
  | map as, b, h => by
    cases b <;> simp only [eqb, Bool.false_eq_true] at h
    rw [eq_of_eqbEntries h]

theorem eq_of_eqbItems : ∀ {as bs : List Value}, eqbItems as bs = true → as = bs
  | [], bs, h => by cases bs <;> simp_all [eqbItems]
  | a :: as, bs, h => by
    cases bs with
    | nil => simp [eqbItems] at h
    | cons b bs =>
      simp only [eqbItems, Bool.and_eq_true] at h
      rw [eq_of_eqb h.1, eq_of_eqbItems h.2]

theorem eq_of_eqbEntries : ∀ {as bs : List (Value × Value)}, eqbEntries as bs = true → as = bs
  | [], bs, h => by cases bs <;> simp_all [eqbEntries]
  | (k, v) :: as, bs, h => by
    cases bs with
    | nil => simp [eqbEntries] at h
    | cons b bs =>
      obtain ⟨l, w⟩ := b
      simp only [eqbEntries, Bool.and_eq_true] at h
      rw [eq_of_eqb h.1.1, eq_of_eqb h.1.2, eq_of_eqbEntries h.2]

end

mutual

theorem eqb_self : ∀ a : Value, eqb a a = true
  | null => by simp [eqb]
  | bool _ => by simp [eqb]
  | int _ => by simp [eqb]
  | float _ => by simp [eqb]
  | str _ => by simp [eqb]
  | seq as => by simpa [eqb] using eqbItems_self as
  | map as => by simpa [eqb] using eqbEntries_self as

theorem eqbItems_self : ∀ as : List Value, eqbItems as as = true
  | [] => by simp [eqbItems]
  | a :: as => by simp [eqbItems, eqb_self a, eqbItems_self as]

theorem eqbEntries_self : ∀ as : List (Value × Value), eqbEntries as as = true
  | [] => by simp [eqbEntries]
  | (k, v) :: as => by simp [eqbEntries, eqb_self k, eqb_self v, eqbEntries_self as]

end

instance : DecidableEq Value := fun a b =>
  decidable_of_iff (eqb a b = true) ⟨eq_of_eqb, fun h => h ▸ eqb_self a⟩

/-! ### Clashing keys -/

mutual

/-- Two values clash as keys of one mapping. -/
def clashes : Value → Value → Bool
  | float a, float b => a.sameNumber b
  | seq as, seq bs => clashesItems as bs
  | map as, map bs => as.length == bs.length && clashesEntries as bs
  | null, null => true
  | bool a, bool b => a == b
  | int a, int b => a == b
  | str a, str b => a == b
  | _, _ => false

/-- The items clash pairwise. -/
def clashesItems : List Value → List Value → Bool
  | [], [] => true
  | a :: as, b :: bs => clashes a b && clashesItems as bs
  | _, _ => false

/-- Every entry of the first list has a counterpart in the second, in any order. -/
def clashesEntries : List (Value × Value) → List (Value × Value) → Bool
  | [], _ => true
  | (k, v) :: as, bs => bs.any (fun b => clashes k b.1 && clashes v b.2) && clashesEntries as bs

end

/-- No two of these keys clash. -/
def noClash : List Value → Bool
  | [] => true
  | k :: ks => !ks.any (fun l => clashes k l) && noClash ks

mutual

/-- No mapping inside the value has clashing keys. -/
def distinctKeys : Value → Bool
  | seq items => distinctKeysItems items
  | map entries => noClash (entries.map Prod.fst) && distinctKeysEntries entries
  | _ => true

/-- `distinctKeys` for every item. -/
def distinctKeysItems : List Value → Bool
  | [] => true
  | v :: vs => distinctKeys v && distinctKeysItems vs

/-- `distinctKeys` for every key and value. -/
def distinctKeysEntries : List (Value × Value) → Bool
  | [] => true
  | (k, v) :: es => distinctKeys k && distinctKeys v && distinctKeysEntries es

end

/-! ### Building values -/

/-- A sequence of texts. -/
def texts (items : List String) : Value := seq (items.map str)

/-- A mapping with text keys. -/
def record (fields : List (String × Value)) : Value :=
  map (fields.map fun f => (str f.1, f.2))

end Value
end OrgAlign
