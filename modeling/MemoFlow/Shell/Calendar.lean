import MemoFlow.Shell.Given

/-!
# Dates

The program `date`.

* `Calendar.days`, `Calendar.civil`: days from the start of 1970 as a year, a month and a day;
* `Calendar.moment?`: a moment as it is written;
* `Calendar.written`: a moment in a format;
* **`Shell.date`**: the program.
-/

namespace MemoFlow.Shell

namespace Calendar

/-! ## Days -/

/-- The days from the start of 1970 to a day of a month of a year. Years begin in March here, so
that a leap day is the last day of its year. -/
def days (year : Int) (month day : Nat) : Int :=
  let y := if month ≤ 2 then year - 1 else year
  let m := (month + 9) % 12
  365 * y + y / 4 - y / 100 + y / 400 + ((153 * m + 2) / 5 : Nat) + day - 719469

/-- The year, month and day that lie some days behind the start of 1970. -/
def civil (n : Int) : Int × Nat × Nat :=
  let z := n + 719468
  let era := z / 146097
  let d := (z % 146097).toNat
  let y := (d - d / 1460 + d / 36524 - d / 146096) / 365
  let r := d - (365 * y + y / 4 - y / 100)
  let m := (5 * r + 2) / 153
  let month := if m < 10 then m + 3 else m - 9
  (y + 400 * era + (if month ≤ 2 then 1 else 0), month, r - (153 * m + 2) / 5 + 1)

/-- The names of months. -/
def months : List String :=
  ["January", "February", "March", "April", "May", "June", "July", "August", "September",
    "October", "November", "December"]

/-- The names of days, Sunday first. -/
def weekdays : List String :=
  ["Sunday", "Monday", "Tuesday", "Wednesday", "Thursday", "Friday", "Saturday"]

/-- The start of a name. -/
def brief (s : String) : String := String.ofList (s.toList.take 3)

/-! ## Reading -/

/-- Parts of a text between signs, as numbers. -/
def numbers? (sign : Char) (s : String) : Option (List Nat) :=
  ((s.toList.splitOnP (· = sign)).map String.ofList).mapM fun p =>
    if !p.isEmpty && p.all Char.isDigit then p.toNat? else none

/-- A day, as long as there is one of that name. -/
def day? (y m d : Nat) : Option Int :=
  let n := days y m d
  if 1 ≤ m && m ≤ 12 && 1 ≤ d && civil n = ((y : Int), m, d) then some n else none

/-- A date without a time. -/
def date? (s : String) : Option Int :=
  match numbers? '-' s, numbers? '/' s with
  | some [y, m, d], _ => day? y m d
  | _, some [a, b, c] => if s.toList.take 4 |>.all Char.isDigit then day? a b c else day? c a b
  | _, _ =>
    match s.length, s.toNat? with
    | 8, some n => day? (n / 10000) (n / 100 % 100) (n % 100)
    | _, _ => none

/-- A time of the day in seconds. -/
def time? (s : String) : Option Int :=
  match numbers? ':' s with
  | some [h, m] => if h < 24 && m < 60 then some (3600 * h + 60 * m) else none
  | some [h, m, t] => if h < 24 && m < 60 && t < 61 then some (3600 * h + 60 * m + t) else none
  | _ => none

/-- The length of a unit in seconds, and in months. -/
def unit? (s : String) : Option (Int × Int) :=
  let s := if s.endsWith "s" then String.ofList s.toList.dropLast else s
  match s with
  | "second" | "sec" => some (1, 0)
  | "minute" | "min" => some (60, 0)
  | "hour" => some (3600, 0)
  | "day" => some (86400, 0)
  | "week" => some (604800, 0)
  | "fortnight" => some (1209600, 0)
  | "month" => some (0, 1)
  | "year" => some (0, 12)
  | _ => none

/-- What has been read of a moment: a day, a time, and what is added to them in seconds and
months. -/
structure Sketch where
  /-- The day. -/
  day : Option Int := none
  /-- The time of the day. -/
  time : Option Int := none
  /-- What is added in seconds. -/
  seconds : Int := 0
  /-- What is added in months. -/
  months : Int := 0

/-- A number with a sign before it. -/
def signed? (s : String) : Option Int :=
  match s.toList with
  | '-' :: r => (String.ofList r).toNat?.map fun n => -(n : Int)
  | '+' :: r => (String.ofList r).toNat?.map Int.ofNat
  | _ => s.toNat?.map Int.ofNat

/-- A number of units more, `sign` times. -/
def Sketch.shifted? (s : Sketch) (sign : Int) (number unit : String) : Option Sketch :=
  match signed? number, unit? unit with
  | some n, some (t, m) =>
    some { s with seconds := s.seconds + sign * n * t, months := s.months + sign * n * m }
  | _, _ => none

/-- What a word alone says of a moment. -/
def Sketch.word? (s : Sketch) (w : String) : Option Sketch :=
  if ["now", "today", "UTC", "GMT", "Z", "utc", "gmt"].contains w then some s
  else if w = "tomorrow" then s.shifted? 1 "1" "day"
  else if w = "yesterday" then s.shifted? (-1) "1" "day"
  else
    match date? w, time? w with
    | some d, _ => some { s with day := some d }
    | none, some t => some { s with time := some t }
    | none, none => s.shifted? 1 "1" w

/-- The words of a moment. -/
def sketch? (s : Sketch) : List String → Option Sketch
  | [] => some s
  | w :: u :: "ago" :: r => (s.shifted? (-1) w u).bind fun s => sketch? s r
  | w :: r =>
    match s.word? w with
    | some s => sketch? s r
    | none =>
      match r with
      | u :: r => (s.shifted? 1 w u).bind fun s => sketch? s r
      | [] => none

/-- A moment in seconds from the start of 1970, seen from another one. -/
def moment? (now : Int) (text : String) : Option Int :=
  match text.toList with
  | '@' :: r => signed? (String.ofList (r.takeWhile (· ≠ '.')))
  | cs =>
    let spaced := cs.flatMap fun c => if c = 'T' || c = 'Z' then [' '] else [c]
    let joined := cs.any Char.isDigit && (cs.filter (· = 'T')).length = 1
    (sketch? { } (wordsIn (if joined then String.ofList spaced else text))).map fun s =>
      let day := s.day.getD (now / 86400)
      let time := s.time.getD (if s.day.isSome then 0 else now % 86400)
      let (y, m, d) := civil day
      let n := 12 * y + (m : Int) - 1 + s.months
      86400 * (days (n / 12) ((n % 12).toNat + 1) 1 + (d : Int) - 1) + time + s.seconds

/-! ## Writing -/

/-- A number with at least some digits. -/
def digits (fill : Char) (width : Nat) (n : Int) : String :=
  let t := toString n.natAbs
  let zeros := String.ofList (List.replicate (width - t.length) fill)
  if n < 0 then "-" ++ zeros ++ t else zeros ++ t

/-- The week of a year: how many weeks have begun when they begin on some day. -/
def week (dayOfYear weekday first : Nat) : Int := (dayOfYear + 7 - (weekday + 7 - first) % 7) / 7

/-- What a letter stands for: a number with a fill and a width, or a text. -/
def letter? (t : Int) (c : Char) : Option ((Char × Nat × Int) ⊕ String) :=
  let day := t / 86400
  let s := (t % 86400).toNat
  let (y, m, d) := civil day
  let weekday := ((day + 4) % 7).toNat
  let dayOfYear := (day - days y 1 1).toNat
  let hour := s / 3600
  let half := if hour % 12 = 0 then 12 else hour % 12
  let two (n : Nat) : Option ((Char × Nat × Int) ⊕ String) := some (.inl ('0', 2, n))
  let name (ns : List String) (i : Nat) : String := ns[i]?.getD ""
  -- The week of the standard counts from the week in which the first Thursday lies.
  let thursday := day + 3 - ((weekday + 6) % 7 : Nat)
  let weekYear := (civil thursday).1
  let clock := digits '0' 2 hour ++ ":" ++ digits '0' 2 (s / 60 % 60)
  let full := clock ++ ":" ++ digits '0' 2 (s % 60)
  let short := digits '0' 2 m ++ "/" ++ digits '0' 2 d ++ "/" ++ digits '0' 2 (y % 100)
  match c with
  | 'Y' => some (.inl ('0', 4, y))
  | 'C' => some (.inl ('0', 2, y / 100))
  | 'y' => some (.inl ('0', 2, y % 100))
  | 'm' => two m
  | 'd' => two d
  | 'e' => some (.inl (' ', 2, d))
  | 'H' => two hour
  | 'I' => two half
  | 'k' => some (.inl (' ', 2, hour))
  | 'l' => some (.inl (' ', 2, half))
  | 'M' => two (s / 60 % 60)
  | 'S' => two (s % 60)
  | 'N' => some (.inl ('0', 9, 0))
  | 's' => some (.inl ('0', 1, t))
  | 'j' => some (.inl ('0', 3, dayOfYear + 1))
  | 'u' => some (.inl ('0', 1, if weekday = 0 then 7 else weekday))
  | 'w' => some (.inl ('0', 1, weekday))
  | 'q' => some (.inl ('0', 1, (m + 2) / 3))
  | 'U' => some (.inl ('0', 2, week dayOfYear weekday 0))
  | 'W' => some (.inl ('0', 2, week dayOfYear weekday 1))
  | 'V' => some (.inl ('0', 2, (thursday - days weekYear 1 1) / 7 + 1))
  | 'G' => some (.inl ('0', 4, weekYear))
  | 'g' => some (.inl ('0', 2, weekYear % 100))
  | 'a' => some (.inr (brief (name weekdays weekday)))
  | 'A' => some (.inr (name weekdays weekday))
  | 'b' | 'h' => some (.inr (brief (name months (m - 1))))
  | 'B' => some (.inr (name months (m - 1)))
  | 'p' => some (.inr (if hour < 12 then "AM" else "PM"))
  | 'P' => some (.inr (if hour < 12 then "am" else "pm"))
  | 'D' | 'x' => some (.inr short)
  | 'F' => some (.inr (digits '0' 4 y ++ "-" ++ digits '0' 2 m ++ "-" ++ digits '0' 2 d))
  | 'T' | 'X' => some (.inr full)
  | 'R' => some (.inr clock)
  | 'r' => some (.inr (digits '0' 2 half ++ ":" ++ digits '0' 2 (s / 60 % 60) ++ ":" ++
      digits '0' 2 (s % 60) ++ (if hour < 12 then " AM" else " PM")))
  | 'c' => some (.inr (brief (name weekdays weekday) ++ " " ++ brief (name months (m - 1)) ++ " " ++
      digits ' ' 2 d ++ " " ++ full ++ " " ++ toString y))
  | 'Z' => some (.inr "UTC")
  | 'z' => some (.inr "+0000")
  | 'n' => some (.inr "\n")
  | 't' => some (.inr "\t")
  | '%' => some (.inr "%")
  | _ => none

/-- A moment in a format; `fuel` bounds the signs. -/
def written (t : Int) : Nat → List Char → String
  | 0, _ | _, [] => ""
  | fuel + 1, '%' :: r =>
    let flags := r.takeWhile fun c => "-_0^#".contains c
    let behind := r.drop flags.length
    let width := behind.takeWhile Char.isDigit
    match behind.dropWhile Char.isDigit with
    | ':' :: ':' :: 'z' :: rest => "+00:00:00" ++ written t fuel rest
    | ':' :: 'z' :: rest => "+00:00" ++ written t fuel rest
    | c :: rest =>
      match letter? t c with
      | none => "%" ++ written t fuel r
      | some (.inr s) =>
        let s := if flags.contains '^' then s.map Char.toUpper
          else if flags.contains '#' then
            (if c = 'p' then s.map Char.toLower else s.map Char.toUpper) else s
        s ++ written t fuel rest
      | some (.inl (fill, n, v)) =>
        let n := ((String.ofList width).toNat?).getD n
        let s := if flags.contains '-' then toString v
          else if flags.contains '_' then digits ' ' n v
          else if flags.contains '0' then digits '0' n v else digits fill n v
        s ++ written t fuel rest
    | [] => "%" ++ String.ofList r
  | fuel + 1, c :: r => String.singleton c ++ written t fuel r

/-- The options of the program. -/
def known : Known :=
  { plain := "uR", valued := "dfrsI"
    long := [("utc", 'u'), ("universal", 'u'), ("date", 'd'), ("rfc-email", 'R'),
      ("reference", 'r')] }

end Calendar

open Calendar in
/-- **The program `date`**; what time it is, it cannot know. -/
def date (args : List String) : Reply :=
  let now : Int := 1700000000
  let isIso (s : String) : Bool := s.startsWith "-I" || s.startsWith "--iso-8601"
  let iso := args.find? isIso
  match Given.ofList? known (args.filter fun s => !isIso s) with
  | .error e => refuseWithHint 1 "date" e
  | .ok g =>
    match g.rest with
    | _ :: x :: _ => refuseWithHint 1 "date" ("extra operand " ++ inQuotes x)
    | rest =>
      let format := rest.head?.getD (if g.has 'R' then "+%a, %d %b %Y %H:%M:%S +0000"
        else if iso.any fun s => s.endsWith "s" then "+%FT%T+00:00"
        else if iso.isSome then "+%F" else "+%a %b %e %T %Z %Y")
      let said := (g.value? 'd').getD "now"
      match format.toList, g.value? 'r', moment? now said with
      | _, some p, _ => refuse 1 "date" (p ++ ": " ++ noFile)
      | '+' :: f, none, some t => { out := written t (f.length + 1) f ++ "\n" }
      | '+' :: _, none, none => refuse 1 "date" ("invalid date " ++ inQuotes said)
      | _, none, _ => refuse 1 "date" ("invalid date " ++ inQuotes format)

end MemoFlow.Shell
