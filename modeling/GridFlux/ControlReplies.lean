/-
GridFlux/ControlReplies.lean

What the control server writes about files: `formatMdtmTime`, `formatNlst` and
`formatList` of `control_options.cpp`, and the calendar they stand on.

`civilFromDays` and `daysFromCivil` count days in the proleptic Gregorian
calendar, over years that begin in March.
-/
import GridFlux.ControlCommand
import GridFlux.TreeManifest

namespace GridFlux

open TextCodec

/-! ### The calendar -/

/-- `std::tm` with the year and the month as they are read, not as offsets. -/
structure CivilTime where
  year : Int
  month : Int
  day : Int
  hour : Int
  minute : Int
  second : Int
deriving DecidableEq, Repr

/-- Year, month and day of a day counted from 1970-01-01. -/
def civilFromDays (days : Int) : Int × Int × Int :=
  let shifted := days + 719468
  let era := shifted / 146097
  let dayOfEra := shifted % 146097
  let yearOfEra := (dayOfEra - dayOfEra / 1460 + dayOfEra / 36524 - dayOfEra / 146096) / 365
  let dayOfYear := dayOfEra - (365 * yearOfEra + yearOfEra / 4 - yearOfEra / 100)
  let shiftedMonth := (5 * dayOfYear + 2) / 153
  let day := dayOfYear - (153 * shiftedMonth + 2) / 5 + 1
  let month := if shiftedMonth < 10 then shiftedMonth + 3 else shiftedMonth - 9
  (yearOfEra + era * 400 + (if month ≤ 2 then 1 else 0), month, day)

/-- The day counted from 1970-01-01; the day of the month may be any number. -/
def daysFromCivil (year month day : Int) : Int :=
  let shiftedYear := if month ≤ 2 then year - 1 else year
  let era := shiftedYear / 400
  let yearOfEra := shiftedYear % 400
  let shiftedMonth := if month ≤ 2 then month + 9 else month - 3
  let dayOfYear := (153 * shiftedMonth + 2) / 5 + day - 1
  let dayOfEra := yearOfEra * 365 + yearOfEra / 4 - yearOfEra / 100 + dayOfYear
  era * 146097 + dayOfEra - 719468

/-- `gmtime_r`, with the zeroed `tm` of the caller where the year does not fit
an `int`. -/
def gmtime (unixSeconds : Int) : CivilTime :=
  let (year, month, day) := civilFromDays (unixSeconds / 86400)
  let inDay := unixSeconds % 86400
  if -2 ^ 31 ≤ year - 1900 ∧ year - 1900 < 2 ^ 31 then
    ⟨year, month, day, inDay / 3600, inDay % 3600 / 60, inDay % 60⟩
  else ⟨1900, 1, 0, 0, 0, 0⟩

/-- `timegm`, which also takes months outside the year. -/
def timegm (tm : CivilTime) : Int :=
  daysFromCivil (tm.year + (tm.month - 1) / 12) ((tm.month - 1) % 12 + 1) tm.day * 86400 +
    tm.hour * 3600 + tm.minute * 60 + tm.second

/-! ### The texts -/

/-- `%m` and the like: two digits. -/
def twoDigits (value : Int) : Bytes :=
  [UInt8.ofNat (48 + value.toNat / 10), UInt8.ofNat (48 + value.toNat % 10)]

/-- `%Y%m%d%H%M%S`. -/
def timeText (tm : CivilTime) : Bytes :=
  signedDecimal tm.year ++ twoDigits tm.month ++ twoDigits tm.day ++ twoDigits tm.hour ++
    twoDigits tm.minute ++ twoDigits tm.second

/-- The text has to fit a buffer of 16 bytes with its end; `unspecified` is what
the buffer holds if it does not. -/
def formatMdtmTime (unspecified : Bytes) (unixSeconds : Int) : Bytes :=
  let text := timeText (gmtime unixSeconds)
  if text.length < 16 then text else unspecified

structure ControlListEntry where
  name : Bytes
  isDirectory : Bool := false
  size : Nat := 0
  mtimeUnixSeconds : Int := 0
deriving DecidableEq, Repr

def formatNlst (entries : List ControlListEntry) : Bytes :=
  entries.flatMap fun entry => entry.name ++ [carriageReturn, newline]

def formatList (unspecified : Bytes) (entries : List ControlListEntry) : Bytes :=
  entries.flatMap fun entry =>
    ascii (if entry.isDirectory then "d " else "- ") ++ decimal entry.size ++ ascii " " ++
      formatMdtmTime unspecified entry.mtimeUnixSeconds ++ ascii " " ++ entry.name ++
      [carriageReturn, newline]

end GridFlux
