import Stepwise.Script.Program

namespace Stepwise.Script.Program

/-- Counts `$i` from 1 to the last value. -/
def counting (last : Int) : Program where
  body :=
    [.assign 1 "$str" "'start'",
     .count 4 "$i" 1 last [.assign 6 "$str" "'Output ' + $i", .assign 7 "$x" "$i * 2"],
     .command 10 "Get-Date"]

/-- Variables of the script, and a function with a local variable of every shape. -/
def shapes : Program where
  body :=
    [.assign 1 "$scriptInt" "42",
     .declare 2 "$scriptBool" "bool" "$false",
     .call 4 "Test-Variables" [("$Param1", "'Foo'")]]
  functions :=
    [("Test-Variables",
      [.assign 10 "$strVar" "'Hello'",
       .declare 11 "$strVar2" "string" "'Hello2'",
       .declare 12 "$intVar" "int" "7",
       .set 13 "$arrVar" (.array [.int 1, .int 2, .int 3]),
       .set 14 "$assocArrVar"
         (.hashtable [("firstChild", .str "Child"), ("secondChild", .int 42)]),
       .set 15 "$emptyHash" (.hashtable []),
       .set 16 "$nullString" .nullString,
       .set 17 "$psCustomObjVar"
         (.object "PSCustomObject" [("Name", .str "Paul"), ("Age", .int 73)]),
       .set 18 "$enumVar" (.enum "ActionPreference" "Continue"),
       .set 19 "$Force" (.switch true),
       .command 20 "Write-Output",
       .command 21 "Write-Host"])]

/-- Counts `$n` until it is aborted. -/
def endless : Program where
  body := [.assign 1 "$n" "0", .loop 2 [.assign 3 "$n" "$n + 1"]]

end Stepwise.Script.Program
