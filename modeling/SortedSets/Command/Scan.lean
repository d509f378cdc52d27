import SortedSets.Command.Query
import SortedSets.Scan.Cursor

/-!
# Commands that scan a set

A scan takes a round trip for each page, so it is refused where commands are queued.

## Main definitions

* `Command.scanPage`: the command for a page
* `Command.zscan`: one page
* `Command.zscanIter`, `Command.izscan`: a cursor over all pages
-/

namespace SortedSets.Command

/-- Options of a scan; the count must fit the server's integers. -/
def checkOptions : Value → Except Error ScanOptions
  | .none => .ok .unrestricted
  | .options o => do
    if !o.countValue.isNone then
      let _ ← checkInt32 "count" o.countValue
    return o
  | _ => .error (.invalid .optionsType)

/-- The command for the page of a cursor. -/
def scanPage (mode : Mode) (key : Value) (cursor : Int) (o : ScanOptions) (c : Option Conversion) :
    Except Error Command := do
  mode.requireDirect (.text (.ofString "ZSCAN"))
  return ⟨Bytes.ascii "ZSCAN", key :: .int cursor :: o.arguments, c⟩

/-- One page of a scan. -/
def zscan (mode : Mode) (key cursor options : Value) : Except Error Command := do
  checkKey "key" key
  let cursor ← checkCursor cursor
  let o ← checkOptions options
  scanPage mode key cursor o (some .page)

/-- A cursor over the pages of a set. -/
def zscanIter (mode : Mode) (key options cursor : Value) : Except Error (Cursor ScanOptions) := do
  checkKey "key" key
  let cursor ← checkCursor cursor
  mode.requireDirect (.text (.ofString "ZSCAN"))
  return Cursor.start cursor (← checkOptions options)

/-- A cursor over the pages of a set, with the options given one by one. -/
def izscan (mode : Mode) (key pattern count : Value) : Except Error (Cursor ScanOptions) := do
  let o ← ScanOptions.ofValues pattern count
  zscanIter mode key (.options o) (.int 0)

end SortedSets.Command
