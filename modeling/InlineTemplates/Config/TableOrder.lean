import InlineTemplates.Text.Span

/-! # The order of a table of open slots

Keys are kept in a table of slots. A key goes to the first free slot that its hash leads to, and a
table that is full doubles. Going through the slots gives the keys in an order that is the same on
every run, but that is neither the order of the keys nor the order in which they came. -/

namespace InlineTemplates.Config

/-! ## Hashes -/

/-- The bytes of a text. -/
def bytesOf (t : Text) : List UInt8 := (String.ofList t).toUTF8.toList

/-- A number from its bytes, the lowest first. -/
def wordOf (bytes : List UInt8) : UInt64 :=
  bytes.foldr (fun b n => n * 256 + b.toUInt64) 0

/-- The hash with one more word. -/
def mixWord (hash word : UInt64) : UInt64 :=
  (((hash <<< 5) ||| (hash >>> 59)) ^^^ word) * 0x517CC1B727220A95

/-- The hash with more bytes: words of eight, one of four if as many are left, and single ones. -/
def mixBytes (hash : UInt64) (bytes : List UInt8) : UInt64 :=
  if 8 ≤ bytes.length then mixBytes (mixWord hash (wordOf (bytes.take 8))) (bytes.drop 8)
  else if 4 ≤ bytes.length then
    (bytes.drop 4).foldl (fun h b => mixWord h b.toUInt64) (mixWord hash (wordOf (bytes.take 4)))
  else bytes.foldl (fun h b => mixWord h b.toUInt64) hash
termination_by bytes.length
decreasing_by
  simp only [List.length_drop]
  omega

/-- The hash of a key. A byte that no text has ends it. -/
def hashOf (key : Text) : Nat := (mixWord (mixBytes 0 (bytesOf key)) 0xFF).toNat

/-! ## Slots -/

/-- A table: its number of slots is a power of two, or there are none. -/
structure Table where
  slots : Array (Option Text) := #[]
deriving Repr

namespace Table

/-- The keys in the order of their slots. -/
def keys (t : Table) : List Text := t.slots.toList.filterMap id

/-- How many keys so many slots take: a part of them stays free. -/
def capacityOf (slots : Nat) : Nat := if slots ≤ 8 then slots - 1 else slots / 8 * 7

/-- The least number of slots that takes so many keys. -/
def slotsFor (keys : Nat) : Nat :=
  if keys < 4 then 4 else if keys < 8 then 8 else if keys < 15 then 16
  else Nat.pow 2 (Nat.log2 (keys * 8 / 7 - 1) + 1)

/-- The slots that a hash leads to: groups of sixteen neighbours, each group further on than the one
before by one group more. -/
def probes (slots hash : Nat) : List Nat :=
  (List.range (slots / 16 + 1)).flatMap fun round =>
    (List.range 16).map fun i => (hash + 16 * (round * (round + 1) / 2) + i) % slots

/-- Puts a key into the first free slot that its hash leads to. -/
def place (slots : Array (Option Text)) (key : Text) : Array (Option Text) :=
  match (probes slots.size (hashOf key)).find? fun i => (slots.getD i none).isNone with
  | some i => slots.setIfInBounds i (some key)
  | none => slots

/-- The table with a free slot to spare. -/
def reserved (t : Table) : Table :=
  let used := t.keys.length
  if used < capacityOf t.slots.size then t
  else
    let wanted := max (used + 1) (capacityOf t.slots.size + 1)
    ⟨t.keys.foldl place (Array.replicate (slotsFor wanted) none)⟩

/-- The table with a key. Room is made for it even if the table has it already. -/
def insert (t : Table) (key : Text) : Table :=
  let t := t.reserved
  if t.keys.contains key then t else ⟨place t.slots key⟩

end Table

/-- The keys in the order of a table that they are put into one after the other. -/
def tableOrder (keys : List Text) : List Text := (keys.foldl Table.insert {}).keys

end InlineTemplates.Config
