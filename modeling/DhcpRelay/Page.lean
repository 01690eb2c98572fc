import DhcpRelay.Json.Value
import DhcpRelay.SortedTable

/-!
# Pages of a listing

A caller reads a long listing in pages: it names the position to start from and how many items it
takes, and gets a `Page` that says where the next one starts. On the last page, and on a page that
is empty because the request lies outside the listing, `next` is 0 and `more` is false.

Positions and counts come as 64-bit integers. `paginate64?` finds the page in their arithmetic and
fails where that leaves their range or the listing.
-/

namespace DhcpRelay

/-- One page of a listing. -/
structure Page (α : Type) where
  start : Nat
  /-- The position after the last item if more items follow, otherwise 0. -/
  next : Nat
  count : Nat
  more : Bool
  items : List α
  deriving Repr, DecidableEq

/-- The page without items. -/
def Page.empty {α : Type} (start : Nat) : Page α := ⟨start, 0, 0, false, []⟩

/-- The page in JSON. -/
def Page.toJson {α : Type} (encode : α → Json) (p : Page α) : Json :=
  .obj [("start", .nat p.start), ("next", .nat p.next), ("count", .nat p.count),
    ("more", .bool p.more), ("items", .ofList encode p.items)]

/-- At most `count` of the items from position `first` on. A position outside the listing, or a
count that is not positive, gives the page without items. -/
def paginate {α : Type} (items : List α) (first count : Int) : Page α :=
  if first < 0 ∨ items.length ≤ first ∨ count ≤ 0 then
    .empty first.toNat
  else
    let start := first.toNat
    let taken := (items.drop start).take count.toNat
    if items.length ≤ first + count then
      ⟨start, 0, taken.length, false, taken⟩
    else
      ⟨start, start + taken.length, taken.length, true, taken⟩

/-- A page of a table's values, in key order. -/
def SortedTable.page {κ ν : Type} [Ord κ] (t : SortedTable κ ν) (first count : Int) : Page ν :=
  paginate t.values first count

/-! ## In 64-bit arithmetic -/

/-- The sum of two integers, or the end of the range where it lies beyond. -/
def saturatingSum (a b : Int64) : Int64 :=
  .ofInt (max Int64.minValue.toInt (min Int64.maxValue.toInt (a.toInt + b.toInt)))

/-- The sum of two integers, if it lies in the range. -/
def sum? (a b : Int64) : Option Int64 :=
  let sum := a.toInt + b.toInt
  if Int64.minValue.toInt ≤ sum ∧ sum ≤ Int64.maxValue.toInt then some (.ofInt sum) else none

/-- The items from position `start` to before position `stop`, if these lie in the list and in this
order. -/
def part? {α : Type} (items : List α) (start stop : Nat) : Option (List α) :=
  if start ≤ stop ∧ stop ≤ items.length then some (items.extract start stop) else none

/-- At most `count` of the items from position `first` on, found in 64-bit arithmetic. -/
def paginate64? {α : Type} (items : List α) (first count : Int64) : Option (Page α) :=
  let length := Int64.ofNat items.length
  if first < 0 ∨ length ≤ first ∨ count ≤ 0 then
    some (.empty first.toNatClampNeg)
  else
    let start := first.toNatClampNeg
    if length ≤ saturatingSum first count then do
      let taken ← part? items start length.toNatClampNeg
      return ⟨start, 0, taken.length, false, taken⟩
    else do
      let stop := (← sum? first count).toNatClampNeg
      let taken ← part? items start stop
      return ⟨start, stop, taken.length, true, taken⟩

end DhcpRelay
