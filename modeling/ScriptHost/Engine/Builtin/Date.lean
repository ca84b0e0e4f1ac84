import ScriptHost.Engine.Builtin.Number
/-!
Functions on dates. All times are in the zone of Greenwich; a date without a time is not a number.
-/

namespace ScriptHost.Engine.Builtin

/-- A point in time by its parts. -/
structure Moment where
  year : Int
  month : Nat
  day : Nat
  hour : Nat
  minute : Nat
  second : Nat
  milli : Nat
  weekday : Nat

/-- Milliseconds of a day. -/
def dayMillis : Int := 86400000

/-- The day of a date, counted from the first of January 1970. -/
def dayNumber (year : Int) (month day : Int) : Int :=
  let year := year + month.fdiv 12
  let month := (month.fmod 12) + 1
  let y := if month ≤ 2 then year - 1 else year
  let era := y.fdiv 400
  let yoe := y - era * 400
  let doy := (153 * (if month > 2 then month - 3 else month + 9) + 2) / 5 + day - 1
  let doe := yoe * 365 + yoe / 4 - yoe / 100 + doy
  era * 146097 + doe - 719468

/-- The parts of a point in time. -/
def momentOf (t : Int) : Moment :=
  let days := t.fdiv dayMillis
  let rest := (t.fmod dayMillis).toNat
  let z := days + 719468
  let era := z.fdiv 146097
  let doe := (z - era * 146097).toNat
  let yoe := (doe - doe / 1460 + doe / 36524 - doe / 146096) / 365
  let doy := doe - (365 * yoe + yoe / 4 - yoe / 100)
  let mp := (5 * doy + 2) / 153
  let day := doy - (153 * mp + 2) / 5 + 1
  let month := if mp < 10 then mp + 2 else mp - 10
  let year := (yoe : Int) + era * 400 + (if month < 2 then 1 else 0)
  { year, month, day, hour := rest / 3600000, minute := rest / 60000 % 60,
    second := rest / 1000 % 60, milli := rest % 1000, weekday := ((days + 4).fmod 7).toNat }

/-- The time within the range of dates. -/
def clipTime (x : Float) : Float :=
  if x.isNaN || x.abs > 8.64e15 then Number.nan else Number.truncate x + 0

/-- A number with zeros in front. -/
def padded (width n : Nat) : String := padDigits width (toString n)

/-- A year in the form that dates have. -/
def yearText (y : Int) : String :=
  if 0 ≤ y && y ≤ 9999 then padded 4 y.toNat
  else (if y < 0 then "-" else "+") ++ padded 6 y.natAbs

/-- A point in time in the form for machines. -/
def isoText (m : Moment) : String :=
  yearText m.year ++ "-" ++ padded 2 (m.month + 1) ++ "-" ++ padded 2 m.day ++ "T" ++
    padded 2 m.hour ++ ":" ++ padded 2 m.minute ++ ":" ++ padded 2 m.second ++ "." ++
    padded 3 m.milli ++ "Z"

/-- The names of days. -/
def dayNames : List String := ["Sun", "Mon", "Tue", "Wed", "Thu", "Fri", "Sat"]

/-- The names of months. -/
def monthNames : List String :=
  ["Jan", "Feb", "Mar", "Apr", "May", "Jun", "Jul", "Aug", "Sep", "Oct", "Nov", "Dec"]

/-- The date of a point in time for people. -/
def dateText (m : Moment) : String :=
  dayNames.getD m.weekday "" ++ " " ++ monthNames.getD m.month "" ++ " " ++ padded 2 m.day ++ " " ++
    yearText m.year

/-- The clock of a point in time. -/
def clockText (m : Moment) : String :=
  padded 2 m.hour ++ ":" ++ padded 2 m.minute ++ ":" ++ padded 2 m.second

/-- A point in time for people everywhere. -/
def universalText (m : Moment) : String :=
  dayNames.getD m.weekday "" ++ ", " ++ padded 2 m.day ++ " " ++ monthNames.getD m.month "" ++ " " ++
    yearText m.year ++ " " ++ clockText m ++ " GMT"

/-- A part of a point in time, or its default. -/
def partOr (parts : List Float) (i : Nat) (default : Int) : Int :=
  match parts[i]? with
  | some x => Number.whole (Number.truncate x)
  | none => default

/-- The year that two digits stand for; other years stand for themselves. -/
def fullYear (y : Int) : Int := if 0 ≤ y ∧ y ≤ 99 then 1900 + y else y

/-- A point in time from its parts; parts beyond their range run over. -/
def timeOf (parts : List Float) : Float :=
  if parts.any fun x => x.isNaN || x.isInf then Number.nan
  else
    let part := partOr parts
    let days := dayNumber (fullYear (part 0 1970)) (part 1 0) 1 + (part 2 1 - 1)
    clipTime (Number.ofInt
      (days * dayMillis + part 3 0 * 3600000 + part 4 0 * 60000 + part 5 0 * 1000 + part 6 0))

/-- So many digits at the front. -/
def takeDigits (n : Nat) (cs : List Char) : Option (Int × List Char) :=
  let ds := cs.take n
  if ds.length = n && ds.all Char.isDigit then some (Script.Token.numberOf 10 ds, cs.drop n) else none

/-- A part of a date behind a mark, or its default. -/
def partAfter (mark : Char) (n : Nat) (default : Int) (cs : List Char) : Option (Int × List Char) :=
  match cs with
  | c :: rest => if c = mark then takeDigits n rest else some (default, cs)
  | [] => some (default, [])

/-- The point in time that a text in the form for machines names. -/
def parseIso (s : String) : Option Float := do
  let cs := s.toList
  let (year, cs) ← match cs with
    | '+' :: rest => takeDigits 6 rest
    | '-' :: rest => (takeDigits 6 rest).map fun (y, r) => (-y, r)
    | cs => takeDigits 4 cs
  let (month, cs) ← partAfter '-' 2 1 cs
  let (day, cs) ← partAfter '-' 2 1 cs
  let (hour, cs) ← partAfter 'T' 2 0 cs
  let (minute, cs) ← partAfter ':' 2 0 cs
  let (second, cs) ← partAfter ':' 2 0 cs
  let (milli, cs) ← partAfter '.' 3 0 cs
  let offset : Int ← match cs with
    | [] | ['Z'] => some 0
    | sign :: rest =>
      if sign = '+' || sign = '-' then do
        let (h, rest) ← takeDigits 2 rest
        let (m, _) ← partAfter ':' 2 0 rest
        some ((if sign = '-' then -1 else 1) * (h * 60 + m))
      else none
  if month < 1 || month > 12 || day < 1 || day > 31 || hour > 24 || minute > 59 || second > 59 then none
  else
    let days := dayNumber year (month - 1) day
    some (clipTime (Number.ofInt
      (days * dayMillis + hour * 3600000 + (minute - offset) * 60000 + second * 1000 + milli)))

/-- The time of the date that a method was called on. -/
def thisTime (v : Value) : M Float := do
  match v with
  | .obj id =>
    match (← objectOf id).kind with
    | .date t => return t
    | _ => throwType "not a Date object"
  | _ => throwType "not a Date object"

/-- The time now. -/
def now : M Float := look (·.outside.clock)

/-- Functions on dates. -/
def date (f : DateFn) (i : Invocation) : M Value := do
  let v := i.arg 0
  let shown (t : Float) (text : Moment → String) : Value :=
    .str (if t.isNaN then "Invalid Date" else text (momentOf (Number.whole t)))
  let long (m : Moment) : String := dateText m ++ " " ++ clockText m ++ " GMT+0000 (UTC)"
  match f with
  | .new => do
    if !i.isNew then return shown (← now) long
    let t ← match i.args.toList with
      | [] => now
      | [.obj id] => do
        match (← objectOf id).kind with
        | .date t => pure t
        | _ => do
          match ← toPrimitive v .default with
          | .str s => pure ((parseIso s).getD Number.nan)
          | p => do pure (clipTime (← toNumber p))
      | [.str s] => pure ((parseIso s).getD Number.nan)
      | [v] => do pure (clipTime (← toNumber v))
      | vs => do pure (timeOf (← vs.mapM toNumber))
    allocate { proto := ← prototypeFor i.newTarget .date, kind := .date t }
  | .now => return .num (← now)
  | .parse => return .num ((parseIso (← toText v)).getD Number.nan)
  | .utc => return .num (timeOf (← i.args.toList.mapM toNumber))
  | .toPrimitive => do
    if i.this.isPrimitive then throwType "not an object"
    match v with
    | .str "number" => ordinaryPrimitive i.this ["valueOf", "toString"]
    | _ => ordinaryPrimitive i.this ["toString", "valueOf"]
  | .toJSON => do
    let o ← toObject i.this
    match ← toPrimitive o .number with
    | .num x =>
      if x.isNaN || x.isInf then return .null
      call (← getNamed o "toISOString") o #[]
    | _ => call (← getNamed o "toISOString") o #[]
  | f => do
    let t ← thisTime i.this
    let m := momentOf (Number.whole t)
    let number (n : Int) : Value := .num (if t.isNaN then Number.nan else Number.ofInt n)
    match f with
    | .toISOString => do
      if t.isNaN then throwNew .range "Date value is NaN"
      return .str (isoText m)
    | .toString => return shown t long
    | .toDateString => return shown t dateText
    | .toTimeString => return shown t fun m => clockText m ++ " GMT+0000 (UTC)"
    | .toUTCString => return shown t universalText
    | .getFullYear => return number m.year
    | .getMonth => return number m.month
    | .getDate => return number m.day
    | .getDay => return number m.weekday
    | .getHours => return number m.hour
    | .getMinutes => return number m.minute
    | .getSeconds => return number m.second
    | .getMilliseconds => return number m.milli
    | .getTimezoneOffset => return number 0
    | .setTime => do
      let x := clipTime (← toNumber v)
      if let .obj id := i.this then changeObject id ({ · with kind := .date x })
      return .num x
    | _ => return .num t

end ScriptHost.Engine.Builtin
