import InlineTemplates.Proofs.Config.Probes
import Mathlib.Data.List.Perm.Basic
import Mathlib.Data.List.Nodup

/-! # What a table holds

A table keeps each key that is put into it once, also when its keys move to more slots. Keys whose
hashes lead to different slots at once stand in the order of these slots. -/

namespace InlineTemplates.Config.Table

open List (Perm)

/-! ## Placing a key -/

theorem filterMap_set_perm {α : Type} {l : List (Option α)} {i : Nat} (h : l[i]? = some none)
    (a : α) : Perm ((l.set i (some a)).filterMap id) (a :: l.filterMap id) := by
  obtain ⟨hi, hnone⟩ := List.getElem?_eq_some_iff.1 h
  have hl : l.filterMap id = (l.take i).filterMap id ++ (l.drop (i + 1)).filterMap id := by
    conv => lhs; rw [← List.take_append_drop i l, List.drop_eq_getElem_cons hi, hnone]
    simp
  rw [List.set_eq_take_append_cons_drop, if_pos hi, hl]
  simp [List.perm_middle]

theorem exists_free {t : Table} (hroom : t.keys.length < t.slots.size) :
    ∃ i : Nat, t.slots.toList[i]? = some none := by
  by_contra hfull
  refine hroom.ne (List.filterMap_length_eq_length.2 ?_)
  intro slot hslot
  obtain ⟨i, hi⟩ := List.getElem?_of_mem hslot
  cases slot with
  | none => exact absurd ⟨i, hi⟩ hfull
  | some key => rfl

theorem getD_isNone_iff {t : Table} {i : Nat} (hi : i < t.slots.size) :
    (t.slots.getD i none).isNone = true ↔ t.slots.toList[i]? = some none := by
  simp [hi]

theorem find?_probes {t : Table} (hsize : IsSize t.slots.size)
    (hroom : t.keys.length < t.slots.size) (hash : Nat) :
    ∃ i : Nat, ((probes t.slots.size hash).find? fun i => (t.slots.getD i none).isNone) = some i ∧
      t.slots.toList[i]? = some none ∧
      (t.slots.toList[hash % t.slots.size]? = some none → i = hash % t.slots.size) := by
  -- Some slot is free, and the hash leads to all of them.
  obtain ⟨j, hj⟩ := exists_free hroom
  obtain ⟨hjlt, -⟩ := List.getElem?_eq_some_iff.1 hj
  have hfound : ((probes t.slots.size hash).find? fun i =>
      (t.slots.getD i none).isNone).isSome = true := by
    rw [List.find?_isSome]
    exact ⟨j, mem_probes hsize hjlt _, (getD_isNone_iff hjlt).2 hj⟩
  obtain ⟨i, hi⟩ := Option.isSome_iff_exists.1 hfound
  have hilt : i < t.slots.size := by
    obtain ⟨r, -, m, -, rfl⟩ := mem_probes_iff.1 (List.mem_of_find?_eq_some hi)
    exact Nat.mod_lt _ hsize.pos
  have hnone := List.find?_some hi
  refine ⟨i, hi, (getD_isNone_iff hilt).1 hnone, ?_⟩
  intro hfirst
  obtain ⟨rest, hrest⟩ := List.head?_eq_some_iff.1 (head?_probes t.slots.size hash)
  have hfirst := (getD_isNone_iff (Nat.mod_lt hash hsize.pos)).2 hfirst
  simp only [hrest, List.find?_cons, hfirst] at hi
  exact (Option.some.inj hi).symm

def home (slots : Nat) (key : Text) : Nat := hashOf key % slots

theorem home_lt {slots : Nat} (h : 0 < slots) (key : Text) : home slots key < slots :=
  Nat.mod_lt _ h

def placed (t : Table) (key : Text) : Table := ⟨place t.slots key⟩

/-- A key goes to a slot that was free, and to its first one if that was free. -/
theorem exists_placed {t : Table} (hsize : IsSize t.slots.size)
    (hroom : t.keys.length < t.slots.size) (key : Text) :
    ∃ i : Nat, t.slots.toList[i]? = some none ∧
      (placed t key).slots = t.slots.setIfInBounds i (some key) ∧
      (t.slots.toList[home t.slots.size key]? = some none → i = home t.slots.size key) := by
  obtain ⟨i, hi, hfree, hfirst⟩ := find?_probes hsize hroom (hashOf key)
  refine ⟨i, hfree, ?_, hfirst⟩
  simp only [placed, place, hi]

theorem size_placed (t : Table) (key : Text) : (placed t key).slots.size = t.slots.size := by
  simp only [placed, place]
  split <;> simp

theorem keys_placed {t : Table} (hsize : IsSize t.slots.size)
    (hroom : t.keys.length < t.slots.size) (key : Text) :
    Perm (placed t key).keys (key :: t.keys) := by
  obtain ⟨i, hfree, hplaced, -⟩ := exists_placed hsize hroom key
  simp only [keys, hplaced, Array.toList_setIfInBounds]
  exact filterMap_set_perm hfree key

/-! ## Keys in their first slots -/

/-- Each key is in the slot that it goes to first. -/
def AtHome (t : Table) : Prop :=
  ∀ (i : Nat) (key : Text), t.slots.toList[i]? = some (some key) → home t.slots.size key = i

/-- Keys whose first slots are not shared. -/
def Apart (slots : Nat) (keys : List Text) : Prop :=
  ∀ a ∈ keys, ∀ b ∈ keys, home slots a = home slots b → a = b

theorem AtHome.placed {t : Table} (h : AtHome t) (hsize : IsSize t.slots.size)
    (hroom : t.keys.length < t.slots.size) {key : Text}
    (hnew : ∀ other ∈ t.keys, home t.slots.size other ≠ home t.slots.size key) :
    AtHome (placed t key) := by
  obtain ⟨i, -, hplaced, hhome⟩ := exists_placed hsize hroom key
  have hlt := home_lt hsize.pos key
  have hi : i = home t.slots.size key := by
    refine hhome ?_
    obtain ⟨slot, hslot⟩ : ∃ slot, t.slots.toList[home t.slots.size key]? = some slot :=
      ⟨_, List.getElem?_eq_getElem (by simpa using hlt)⟩
    cases slot with
    | none => exact hslot
    | some other =>
      -- It would be at home here, too.
      have hmem : other ∈ t.keys := List.mem_filterMap.2 ⟨_, List.mem_of_getElem? hslot, rfl⟩
      exact absurd (h _ _ hslot) (hnew other hmem)
  intro j other hj
  rw [hplaced, Array.toList_setIfInBounds, List.getElem?_set] at hj
  rw [size_placed]
  split at hj
  · next heq =>
    split at hj
    · cases hj
      omega
    · cases hj
  · exact h j other hj

theorem pairwise_of_index {α : Type} {f : α → Nat} {l : List (Option α)} {n : Nat}
    (h : ∀ (i : Nat) (a : α), l[i]? = some (some a) → f a = n + i) :
    (l.filterMap id).Pairwise fun a b => f a < f b := by
  induction l generalizing n with
  | nil => exact .nil
  | cons slot l ih =>
    have hrest : ∀ (i : Nat) (a : α), l[i]? = some (some a) → f a = n + 1 + i := by
      intro i a hi
      rw [h (i + 1) a (by simpa using hi)]
      omega
    cases slot with
    | none => exact ih hrest
    | some a =>
      refine List.Pairwise.cons ?_ (ih hrest)
      intro b hb
      obtain ⟨_, hslot, rfl⟩ := List.mem_filterMap.1 hb
      obtain ⟨i, hi⟩ := List.getElem?_of_mem hslot
      rw [h 0 a rfl, hrest i b hi]
      omega

theorem AtHome.keys_pairwise {t : Table} (h : AtHome t) :
    t.keys.Pairwise fun a b => home t.slots.size a < home t.slots.size b :=
  pairwise_of_index (n := 0) fun i key hi => by rw [h i key hi, Nat.zero_add]

/-! ## Placing many keys -/

theorem foldl_place (keys : List Text) (slots : Array (Option Text)) :
    (⟨keys.foldl place slots⟩ : Table) = keys.foldl placed ⟨slots⟩ := by
  induction keys generalizing slots with
  | nil => rfl
  | cons key keys ih => exact ih _

theorem size_foldl_placed (keys : List Text) (t : Table) :
    (keys.foldl placed t).slots.size = t.slots.size := by
  induction keys generalizing t with
  | nil => rfl
  | cons key keys ih => rw [List.foldl_cons, ih, size_placed]

theorem keys_foldl_placed {keys : List Text} {t : Table} (hsize : IsSize t.slots.size)
    (hroom : t.keys.length + keys.length ≤ t.slots.size) :
    Perm (keys.foldl placed t).keys (keys ++ t.keys) := by
  induction keys generalizing t with
  | nil => exact .refl _
  | cons key keys ih =>
    rw [List.length_cons] at hroom
    have hplaced := keys_placed hsize (by omega) key
    have hrest := ih (t := placed t key) (by rwa [size_placed])
      (by rw [size_placed, hplaced.length_eq, List.length_cons]; omega)
    exact hrest.trans ((hplaced.append_left keys).trans List.perm_middle)

theorem AtHome.foldl_placed {keys : List Text} {t : Table} (h : AtHome t)
    (hsize : IsSize t.slots.size) (hroom : t.keys.length + keys.length ≤ t.slots.size)
    (hnodup : (keys ++ t.keys).Nodup) (hapart : Apart t.slots.size (keys ++ t.keys)) :
    AtHome (keys.foldl Table.placed t) := by
  induction keys generalizing t with
  | nil => exact h
  | cons key keys ih =>
    rw [List.length_cons] at hroom
    have hplaced := keys_placed hsize (by omega) key
    have hperm : Perm (keys ++ (Table.placed t key).keys) (key :: keys ++ t.keys) :=
      (hplaced.append_left keys).trans List.perm_middle
    refine ih ?_ (by rwa [size_placed])
      (by rw [size_placed, hplaced.length_eq, List.length_cons]; omega)
      (hperm.nodup_iff.2 hnodup) ?_
    · refine h.placed hsize (by omega) ?_
      intro other hother heq
      have hsame := hapart other (by simp [hother]) key (by simp) heq
      subst hsame
      simp [hother] at hnodup
    · intro a ha b hb
      rw [size_placed]
      exact hapart a (hperm.mem_iff.1 ha) b (hperm.mem_iff.1 hb)

/-! ## Room for a key -/

theorem isSize_slotsFor (n : Nat) : IsSize (slotsFor n) := by
  unfold slotsFor
  split
  · exact ⟨2, by decide, rfl⟩
  split
  · exact ⟨3, by decide, rfl⟩
  split
  · exact ⟨4, by decide, rfl⟩
  · refine ⟨_, ?_, rfl⟩
    have := (Nat.le_log2 (n := n * 8 / 7 - 1) (k := 4) (by omega)).2 (by omega)
    omega

theorem lt_slotsFor (n : Nat) : n < slotsFor n := by
  unfold slotsFor
  split
  · omega
  split
  · omega
  split
  · omega
  · have := Nat.lt_log2_self (n := n * 8 / 7 - 1)
    change n < 2 ^ (Nat.log2 (n * 8 / 7 - 1) + 1)
    omega

theorem capacityOf_lt {n : Nat} (h : 0 < n) : capacityOf n < n := by
  unfold capacityOf
  split <;> omega

/-! ## Putting a key into a table -/

/-- A table that came about by putting keys into it. -/
structure Valid (t : Table) : Prop where
  size : t.slots.size = 0 ∨ IsSize t.slots.size
  nodup : t.keys.Nodup

theorem valid_empty : Valid {} := ⟨.inl rfl, List.nodup_nil⟩

/-- How many slots a table of so many slots and keys has once it has room for one more key. -/
def sizeWithRoom (slots keys : Nat) : Nat :=
  if keys < capacityOf slots then slots
  else slotsFor (max (keys + 1) (capacityOf slots + 1))

def vacant (slots : Nat) : Table := ⟨Array.replicate slots none⟩

@[simp] theorem size_vacant (slots : Nat) : (vacant slots).slots.size = slots :=
  Array.size_replicate

@[simp] theorem keys_vacant (slots : Nat) : (vacant slots).keys = [] := by simp [vacant, keys]

theorem reserved_of_room {t : Table} (h : t.keys.length < capacityOf t.slots.size) :
    t.reserved = t := if_pos h

theorem reserved_of_full {t : Table} (h : ¬ t.keys.length < capacityOf t.slots.size) :
    t.reserved = t.keys.foldl placed (vacant (sizeWithRoom t.slots.size t.keys.length)) := by
  rw [sizeWithRoom, if_neg h, vacant, ← foldl_place]
  exact if_neg h

theorem size_reserved (t : Table) :
    t.reserved.slots.size = sizeWithRoom t.slots.size t.keys.length := by
  by_cases hroom : t.keys.length < capacityOf t.slots.size
  · rw [reserved_of_room hroom, sizeWithRoom, if_pos hroom]
  · rw [reserved_of_full hroom, size_foldl_placed, size_vacant]

theorem isSize_sizeWithRoom {t : Table} (h : Valid t) :
    IsSize (sizeWithRoom t.slots.size t.keys.length) ∧
      t.keys.length < sizeWithRoom t.slots.size t.keys.length := by
  unfold sizeWithRoom
  split
  · next hroom =>
    have hpos : t.slots.size ≠ 0 := by
      intro hzero
      rw [hzero] at hroom
      exact absurd hroom (by simp [capacityOf])
    have hcapacity := capacityOf_lt (Nat.pos_of_ne_zero hpos)
    exact ⟨h.size.resolve_left hpos, by omega⟩
  · have hlt := lt_slotsFor (max (t.keys.length + 1) (capacityOf t.slots.size + 1))
    exact ⟨isSize_slotsFor _, by omega⟩

theorem keys_reserved {t : Table} (h : Valid t) : Perm t.reserved.keys t.keys := by
  by_cases hroom : t.keys.length < capacityOf t.slots.size
  · rw [reserved_of_room hroom]
  · obtain ⟨hsize, hlt⟩ := isSize_sizeWithRoom h
    rw [reserved_of_full hroom]
    rw [← size_vacant (sizeWithRoom t.slots.size t.keys.length)] at hsize
    simpa using keys_foldl_placed hsize (by simpa using Nat.le_of_lt hlt)

theorem reserved_spec {t : Table} (h : Valid t) :
    IsSize t.reserved.slots.size ∧ t.reserved.keys.length < t.reserved.slots.size := by
  rw [size_reserved, (keys_reserved h).length_eq]
  exact isSize_sizeWithRoom h

theorem insert_of_mem {t : Table} (h : Valid t) {key : Text} (hkey : key ∈ t.keys) :
    t.insert key = t.reserved := by
  have hmem := (keys_reserved h).mem_iff.2 hkey
  simp [insert, hmem]

theorem insert_of_notMem {t : Table} (h : Valid t) {key : Text} (hkey : key ∉ t.keys) :
    t.insert key = placed t.reserved key := by
  have hmem := mt (keys_reserved h).mem_iff.1 hkey
  simp [insert, hmem, placed]

theorem size_insert {t : Table} (h : Valid t) (key : Text) :
    (t.insert key).slots.size = sizeWithRoom t.slots.size t.keys.length := by
  by_cases hkey : key ∈ t.keys
  · rw [insert_of_mem h hkey, size_reserved]
  · rw [insert_of_notMem h hkey, size_placed, size_reserved]

theorem keys_insert_of_mem {t : Table} (h : Valid t) {key : Text} (hkey : key ∈ t.keys) :
    Perm (t.insert key).keys t.keys := by
  rw [insert_of_mem h hkey]
  exact (keys_reserved h)

theorem keys_insert_of_notMem {t : Table} (h : Valid t) {key : Text} (hkey : key ∉ t.keys) :
    Perm (t.insert key).keys (key :: t.keys) := by
  obtain ⟨hsize, hroom⟩ := reserved_spec h
  rw [insert_of_notMem h hkey]
  exact (keys_placed hsize hroom key).trans ((keys_reserved h).cons key)

theorem mem_keys_insert {t : Table} (h : Valid t) (key m : Text) :
    m ∈ (t.insert key).keys ↔ m = key ∨ m ∈ t.keys := by
  by_cases hkey : key ∈ t.keys
  · rw [(keys_insert_of_mem h hkey).mem_iff]
    exact ⟨.inr, fun hm => hm.elim (fun heq => heq ▸ hkey) id⟩
  · rw [(keys_insert_of_notMem h hkey).mem_iff, List.mem_cons]

theorem Valid.insert {t : Table} (h : Valid t) (key : Text) : Valid (t.insert key) := by
  have hreserved := reserved_spec h
  by_cases hkey : key ∈ t.keys
  · refine ⟨.inr ?_, (keys_insert_of_mem h hkey).nodup_iff.2 h.nodup⟩
    rw [insert_of_mem h hkey]
    exact hreserved.1
  · refine ⟨.inr ?_, (keys_insert_of_notMem h hkey).nodup_iff.2 (h.nodup.cons hkey)⟩
    rw [insert_of_notMem h hkey, size_placed]
    exact hreserved.1

theorem Valid.foldl_insert {t : Table} (h : Valid t) (keys : List Text) :
    Valid (keys.foldl Table.insert t) := by
  induction keys generalizing t with
  | nil => exact h
  | cons key keys ih => exact ih (h.insert key)

theorem mem_keys_foldl_insert {t : Table} (h : Valid t) (keys : List Text) (m : Text) :
    m ∈ (keys.foldl Table.insert t).keys ↔ m ∈ keys ∨ m ∈ t.keys := by
  induction keys generalizing t with
  | nil => simp
  | cons key keys ih =>
    rw [List.foldl_cons, ih (h.insert key), mem_keys_insert h, List.mem_cons, or_left_comm,
      or_assoc]

/-! ## The table of a list of keys -/

def tableOf (keys : List Text) : Table := keys.foldl insert {}

theorem valid_tableOf (keys : List Text) : Valid (tableOf keys) := valid_empty.foldl_insert keys

theorem tableOf_concat (keys : List Text) (key : Text) :
    tableOf (keys ++ [key]) = (tableOf keys).insert key := by
  rw [tableOf, List.foldl_append]
  rfl

theorem mem_tableOrder {keys : List Text} {m : Text} : m ∈ tableOrder keys ↔ m ∈ keys := by
  have hmem := mem_keys_foldl_insert valid_empty keys m
  have hempty : (⟨#[]⟩ : Table).keys = [] := rfl
  rwa [hempty, or_iff_left List.not_mem_nil] at hmem

def sizeAfter : Nat → Nat → Nat → Nat
  | 0, slots, _ => slots
  | n + 1, slots, keys => sizeAfter n (sizeWithRoom slots keys) (keys + 1)

theorem size_foldl_insert {t : Table} (h : Valid t) {keys : List Text} (hnodup : keys.Nodup)
    (hnew : ∀ key ∈ keys, key ∉ t.keys) :
    (keys.foldl insert t).slots.size = sizeAfter keys.length t.slots.size t.keys.length := by
  induction keys generalizing t with
  | nil => rfl
  | cons key keys ih =>
    obtain ⟨hkey, hnodup⟩ := List.nodup_cons.1 hnodup
    have hperm := keys_insert_of_notMem h (hnew key List.mem_cons_self)
    have hrest : ∀ other ∈ keys, other ∉ (t.insert key).keys := by
      intro other hother hmem
      rcases (mem_keys_insert h key other).1 hmem with rfl | hmem
      · exact hkey hother
      · exact hnew other (List.mem_cons_of_mem _ hother) hmem
    rw [List.foldl_cons, ih (h.insert key) hnodup hrest, size_insert h, hperm.length_eq]
    rfl

theorem size_tableOf_congr {keys others : List Text} (hkeys : keys.Nodup) (hothers : others.Nodup)
    (hlength : keys.length = others.length) :
    (tableOf keys).slots.size = (tableOf others).slots.size := by
  have hempty : (⟨#[]⟩ : Table).keys = [] := rfl
  rw [tableOf, tableOf, size_foldl_insert valid_empty hkeys (by simp [hempty]),
    size_foldl_insert valid_empty hothers (by simp [hempty]), hlength]

/-! ## Keys that do not meet -/

theorem atHome_vacant (slots : Nat) : AtHome (vacant slots) := by
  intro i key hi
  simp [vacant, List.getElem?_replicate] at hi

theorem AtHome.reserved {t : Table} (h : Valid t)
    (hhome : t.reserved.slots.size = t.slots.size → AtHome t)
    (hapart : Apart t.reserved.slots.size t.keys) : AtHome t.reserved := by
  by_cases hroom : t.keys.length < capacityOf t.slots.size
  · rw [reserved_of_room hroom] at hhome ⊢
    exact hhome rfl
  · obtain ⟨hsize, hlt⟩ := isSize_sizeWithRoom h
    rw [size_reserved] at hapart
    rw [reserved_of_full hroom]
    refine (atHome_vacant _).foldl_placed (by simpa using hsize) ?_ ?_ ?_
    · simpa using Nat.le_of_lt hlt
    · simpa using h.nodup
    · simpa using hapart

theorem AtHome.insert {t : Table} (h : Valid t) {key : Text}
    (hhome : (t.insert key).slots.size = t.slots.size → AtHome t)
    (hapart : Apart (t.insert key).slots.size (t.insert key).keys) : AtHome (t.insert key) := by
  have hmem := mem_keys_insert h key
  have hreserved : AtHome t.reserved := by
    rw [size_insert h, ← size_reserved] at hhome hapart
    exact .reserved h hhome fun a ha b hb =>
      hapart a ((hmem a).2 (.inr ha)) b ((hmem b).2 (.inr hb))
  by_cases hkey : key ∈ t.keys
  · rwa [insert_of_mem h hkey]
  · obtain ⟨hsize, hroom⟩ := reserved_spec h
    rw [size_insert h, ← size_reserved] at hapart
    rw [insert_of_notMem h hkey]
    refine hreserved.placed hsize hroom fun other hother heq => hkey ?_
    have hother := (keys_reserved h).mem_iff.1 hother
    rwa [← hapart other ((hmem other).2 (.inr hother)) key ((hmem key).2 (.inl rfl)) heq]

theorem atHome_tableOf {keys : List Text} (h : Apart (tableOf keys).slots.size keys) :
    AtHome (tableOf keys) := by
  induction keys using List.reverseRecOn with
  | nil => exact atHome_vacant 0
  | append_singleton keys key ih =>
    -- If the last key made the table grow, where its keys were before does not matter.
    rw [tableOf_concat] at h ⊢
    refine .insert (valid_tableOf keys) ?_ ?_
    · intro hsize
      rw [hsize] at h
      exact ih fun a ha b hb => h a (by simp [ha]) b (by simp [hb])
    · rw [← tableOf_concat] at h ⊢
      exact fun a ha b hb => h a (mem_tableOrder.1 ha) b (mem_tableOrder.1 hb)

theorem tableOrder_pairwise {keys : List Text} (h : Apart (tableOf keys).slots.size keys) :
    (tableOrder keys).Pairwise fun a b =>
      home (tableOf keys).slots.size a < home (tableOf keys).slots.size b :=
  (atHome_tableOf h).keys_pairwise

/-! ## Two keys -/

theorem length_keys_le_two {x y : Text} {keys : List Text} (h : ∀ key ∈ keys, key = x ∨ key = y) :
    (tableOf keys).keys.length ≤ 2 := by
  have hsubset : (tableOf keys).keys ⊆ [x, y] := by
    intro key hkey
    simpa using h key (mem_tableOrder.1 hkey)
  exact ((valid_tableOf keys).nodup.subperm hsubset).length_le

theorem size_tableOf_two {x y : Text} {keys : List Text} (hkeys : keys ≠ [])
    (h : ∀ key ∈ keys, key = x ∨ key = y) : (tableOf keys).slots.size = 4 := by
  induction keys using List.reverseRecOn with
  | nil => exact absurd rfl hkeys
  | append_singleton keys key ih =>
    have hrest : ∀ other ∈ keys, other = x ∨ other = y := fun other hother =>
      h other (List.mem_append_left _ hother)
    rw [tableOf_concat, size_insert (valid_tableOf keys)]
    cases keys with
    | nil => rfl
    | cons first keys =>
      have hlength := length_keys_le_two hrest
      rw [ih (List.cons_ne_nil _ _) hrest, sizeWithRoom, if_pos]
      exact Nat.lt_of_le_of_lt hlength (by decide)

theorem probes_mod (n hash : Nat) : probes n (hash % n) = probes n hash := by
  simp only [probes, Nat.add_assoc, Nat.mod_add_mod]

theorem place_eq {slots : Array (Option Text)} {key : Text} {n h i : Nat} (hsize : slots.size = n)
    (hhome : home n key = h)
    (hslot : ((probes n h).find? fun i => (slots.getD i none).isNone) = some i) :
    place slots key = slots.setIfInBounds i (some key) := by
  rw [← hhome, ← hsize, home, probes_mod] at hslot
  simp only [place, hslot]

theorem tableOf_two {x y : Text} (hne : x ≠ y) :
    tableOf [x, y] = placed (placed (vacant 4) x) y := by
  have hreserved : ({} : Table).reserved = vacant 4 := rfl
  have hone : tableOf [x] = placed (vacant 4) x := by
    rw [← hreserved]
    exact insert_of_notMem valid_empty List.not_mem_nil
  have hnew : y ∉ (tableOf [x]).keys := fun hmem =>
    hne.symm (by simpa using mem_tableOrder.1 hmem)
  have hroom : (tableOf [x]).keys.length < capacityOf (tableOf [x]).slots.size := by
    have honly : ∀ key ∈ [x], key = x ∨ key = x := by simp
    rw [size_tableOf_two (List.cons_ne_nil x []) honly]
    exact Nat.lt_of_le_of_lt (length_keys_le_two honly) (by decide)
  rw [← hone, ← reserved_of_room hroom, ← insert_of_notMem (valid_tableOf _) hnew]
  exact tableOf_concat [x] y

/-- Of two keys with the same first slot the one that comes first has it, and the other one the slot
behind it, which is the first of all behind the last one. -/
theorem tableOrder_two {x y : Text} (hne : x ≠ y) (h : home 4 x = home 4 y) :
    tableOrder [x, y] = if home 4 x = 3 then [y, x] else [x, y] := by
  have hlt : home 4 x < 4 := home_lt (by decide) x
  change (tableOf [x, y]).keys = _
  rw [tableOf_two hne]
  have hcases : home 4 x = 0 ∨ home 4 x = 1 ∨ home 4 x = 2 ∨ home 4 x = 3 := by omega
  simp only [placed, vacant]
  rcases hcases with hx | hx | hx | hx <;> rw [hx] at h
  · have hfirst : place (Array.replicate 4 none) x = #[some x, none, none, none] :=
      place_eq (i := 0) (by rfl) hx (by rfl)
    have hsecond : place #[some x, none, none, none] y = #[some x, some y, none, none] :=
      place_eq (i := 1) (by rfl) h.symm (by rfl)
    rw [hfirst, hsecond, hx]
    rfl
  · have hfirst : place (Array.replicate 4 none) x = #[none, some x, none, none] :=
      place_eq (i := 1) (by rfl) hx (by rfl)
    have hsecond : place #[none, some x, none, none] y = #[none, some x, some y, none] :=
      place_eq (i := 2) (by rfl) h.symm (by rfl)
    rw [hfirst, hsecond, hx]
    rfl
  · have hfirst : place (Array.replicate 4 none) x = #[none, none, some x, none] :=
      place_eq (i := 2) (by rfl) hx (by rfl)
    have hsecond : place #[none, none, some x, none] y = #[none, none, some x, some y] :=
      place_eq (i := 3) (by rfl) h.symm (by rfl)
    rw [hfirst, hsecond, hx]
    rfl
  · have hfirst : place (Array.replicate 4 none) x = #[none, none, none, some x] :=
      place_eq (i := 3) (by rfl) hx (by rfl)
    have hsecond : place #[none, none, none, some x] y = #[some y, none, none, some x] :=
      place_eq (i := 0) (by rfl) h.symm (by rfl)
    rw [hfirst, hsecond, hx]
    rfl

end InlineTemplates.Config.Table
