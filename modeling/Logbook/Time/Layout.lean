import Logbook.Time.Instant
import Logbook.Text.Digits

/-!
# Time layouts

A layout is a text with directives behind percent signs. `Layout.parse?` reads it into items, or
refuses it as a whole when one directive is unknown; `Layout.render` writes an instant item by
item. Directives that abbreviate a longer layout are read as the items of that layout.
-/

namespace Logbook.Time

inductive Filling where
  | zeros
  | blanks
  | nothing
  deriving DecidableEq, Repr

inductive Quantity where
  | year
  | century
  | yearOfCentury
  | quarter
  | month
  | day
  | dayOfYear
  | weekdayFromMonday
  | weekdayFromSunday
  | weekFromSunday
  | weekFromMonday
  | weekYear
  | weekYearOfCentury
  | weekNumber
  | hour
  | hourOfHalfDay
  | minute
  | second
  | nanosecond
  | unixSeconds
  deriving DecidableEq, Repr

inductive OffsetStyle where
  | plain
  | minutes
  | seconds
  | hours
  | zone
  deriving DecidableEq, Repr

inductive Item where
  | literal (c : Char)
  | number (quantity : Quantity) (filling : Filling)
  | monthName (long : Bool)
  | weekdayName (long : Bool)
  | halfDay (capitals : Bool)
  | fraction
  | fractionDigits (dot : Bool) (digits : Nat)
  | offset (style : OffsetStyle)
  deriving DecidableEq, Repr

namespace Layout

/-- The letters of the quantities, with the filling each has when no other is asked for. -/
def quantities : List (Char × Quantity × Filling) :=
  [('Y', .year, .zeros), ('C', .century, .zeros), ('y', .yearOfCentury, .zeros),
    ('q', .quarter, .zeros), ('m', .month, .zeros), ('d', .day, .zeros), ('e', .day, .blanks),
    ('j', .dayOfYear, .zeros), ('u', .weekdayFromMonday, .zeros),
    ('w', .weekdayFromSunday, .zeros), ('U', .weekFromSunday, .zeros),
    ('W', .weekFromMonday, .zeros), ('G', .weekYear, .zeros), ('g', .weekYearOfCentury, .zeros),
    ('V', .weekNumber, .zeros), ('H', .hour, .zeros), ('k', .hour, .blanks),
    ('I', .hourOfHalfDay, .zeros), ('l', .hourOfHalfDay, .blanks), ('M', .minute, .zeros),
    ('S', .second, .zeros), ('f', .nanosecond, .zeros), ('s', .unixSeconds, .nothing)]

def fillingMarks : List (Char × Filling) := [('-', .nothing), ('_', .blanks), ('0', .zeros)]

def slashedDate : List Item :=
  [.number .month .zeros, .literal '/', .number .day .zeros, .literal '/',
    .number .yearOfCentury .zeros]

def dashedDate : List Item :=
  [.number .year .zeros, .literal '-', .number .month .zeros, .literal '-', .number .day .zeros]

def shortClock : List Item :=
  [.number .hour .zeros, .literal ':', .number .minute .zeros]

def clock : List Item := shortClock ++ [.literal ':', .number .second .zeros]

/-- The letters that stand for a name, a mark or a layout of their own. -/
def composites : List (Char × List Item) :=
  [('b', [.monthName false]), ('h', [.monthName false]), ('B', [.monthName true]),
    ('a', [.weekdayName false]), ('A', [.weekdayName true]), ('P', [.halfDay false]),
    ('p', [.halfDay true]), ('D', slashedDate), ('x', slashedDate), ('F', dashedDate),
    ('v', [.number .day .blanks, .literal '-', .monthName false, .literal '-',
      .number .year .zeros]),
    ('R', shortClock), ('T', clock), ('X', clock),
    ('r', [.number .hourOfHalfDay .zeros, .literal ':', .number .minute .zeros, .literal ':',
      .number .second .zeros, .literal ' ', .halfDay true]),
    ('c', [.weekdayName false, .literal ' ', .monthName false, .literal ' ',
      .number .day .blanks, .literal ' '] ++ clock ++ [.literal ' ', .number .year .zeros]),
    ('z', [.offset .plain]), ('Z', [.offset .zone]), ('t', [.literal '\t']),
    ('n', [.literal '\n']), ('%', [.literal '%']),
    ('+', dashedDate ++ [.literal 'T'] ++ clock ++ [.fraction, .offset .minutes])]

def longDirectives : List (Text × List Item) :=
  [(['.', 'f'], [.fraction]),
    (['.', '3', 'f'], [.fractionDigits true 3]), (['.', '6', 'f'], [.fractionDigits true 6]),
    (['.', '9', 'f'], [.fractionDigits true 9]), (['3', 'f'], [.fractionDigits false 3]),
    (['6', 'f'], [.fractionDigits false 6]), (['9', 'f'], [.fractionDigits false 9]),
    ([':', 'z'], [.offset .minutes]), ([':', ':', 'z'], [.offset .seconds]),
    ([':', ':', ':', 'z'], [.offset .hours])]

/-- Every directive: what is spelled behind the percent sign, and the items it stands for. No
spelling begins with another one. -/
def directives : List (Text × List Item) :=
  quantities.map (fun (letter, quantity, filling) => ([letter], [.number quantity filling])) ++
    fillingMarks.flatMap (fun (mark, filling) =>
      quantities.map fun (letter, quantity, _) => ([mark, letter], [.number quantity filling])) ++
    composites.map (fun (letter, items) => ([letter], items)) ++ longDirectives

theorem directives_ne_nil : ∀ entry ∈ directives, entry.1 ≠ [] := by decide

def directive? (text : Text) : Option (List Item × Text) :=
  (directives.find? fun entry => entry.1.isPrefixOf text).map fun entry =>
    (entry.2, text.drop entry.1.length)

theorem length_lt_of_directive? {text rest : Text} {items : List Item}
    (h : directive? text = some (items, rest)) : rest.length < text.length := by
  unfold directive? at h
  obtain ⟨entry, hfind, heq⟩ := Option.map_eq_some_iff.1 h
  have hne := directives_ne_nil entry (List.mem_of_find?_eq_some hfind)
  have hp : entry.1.isPrefixOf text = true := by simpa using List.find?_some hfind
  obtain ⟨tail, ht⟩ := List.isPrefixOf_iff_prefix.1 hp
  have hpos := List.length_pos_iff.2 hne
  have hlen := congrArg List.length ht
  cases heq
  simp at hlen ⊢
  omega

/-- The items of a layout, or nothing when one of its directives is unknown. -/
def parse? (layout : Text) : Option (List Item) :=
  match layout with
  | [] => some []
  | c :: rest =>
      if c = '%' then
        match h : directive? rest with
        | none => none
        | some (items, behind) =>
            have : behind.length < rest.length := length_lt_of_directive? h
            (parse? behind).map (items ++ ·)
      else (parse? rest).map (.literal c :: ·)
  termination_by layout.length
  decreasing_by all_goals simp; try omega

def monthNames : List Text :=
  ["January".toList, "February".toList, "March".toList, "April".toList, "May".toList,
    "June".toList, "July".toList, "August".toList, "September".toList, "October".toList,
    "November".toList, "December".toList]

def weekdayNames : List Text :=
  ["Monday".toList, "Tuesday".toList, "Wednesday".toList, "Thursday".toList, "Friday".toList,
    "Saturday".toList, "Sunday".toList]

def shorten (long : Bool) (name : Text) : Text := if long then name else name.take 3

/-- A number filled up to a width; the sign counts and stands before zeros but behind blanks. -/
def fill (filling : Filling) (width : Nat) (plus : Bool) (n : Int) : Text :=
  let sign := if n < 0 then ['-'] else if plus then ['+'] else []
  let digits := Text.decimal n.natAbs
  let missing := width - (sign.length + digits.length)
  match filling with
  | .zeros => sign ++ List.replicate missing '0' ++ digits
  | .blanks => spaces missing ++ sign ++ digits
  | .nothing => sign ++ digits

/-- A year has four digits; one outside of them has a sign in front, even a plus. -/
def fillYear (filling : Filling) (year : Int) : Text :=
  if 0 ≤ year ∧ year < 10000 then fill filling 4 false year else fill filling 5 true year

def hourOfHalfDay (hour : Nat) : Nat := if hour % 12 = 0 then 12 else hour % 12

def renderQuantity (instant : Instant) (filling : Filling) : Quantity → Text
  | .year => fillYear filling instant.date.year
  | .century => fill filling 2 false (instant.date.year / 100)
  | .yearOfCentury => fill filling 2 false (instant.date.year % 100)
  | .quarter => Text.decimal ((instant.date.month - 1) / 3 + 1)
  | .month => fill filling 2 false instant.date.month
  | .day => fill filling 2 false instant.date.day
  | .dayOfYear => fill filling 3 false (dayOfYear instant.day + 1)
  | .weekdayFromMonday => Text.decimal (weekday instant.day + 1)
  | .weekdayFromSunday => Text.decimal ((weekday instant.day + 1) % 7)
  | .weekFromSunday => fill filling 2 false (weeksBegun instant.day ((weekday instant.day + 1) % 7))
  | .weekFromMonday => fill filling 2 false (weeksBegun instant.day (weekday instant.day))
  | .weekYear => fillYear filling (weekYear instant.day)
  | .weekYearOfCentury => fill filling 2 false (weekYear instant.day % 100)
  | .weekNumber => fill filling 2 false (weekNumber instant.day)
  | .hour => fill filling 2 false instant.hour
  | .hourOfHalfDay => fill filling 2 false (hourOfHalfDay instant.hour)
  | .minute => fill filling 2 false instant.minute
  | .second => fill filling 2 false instant.second
  | .nanosecond => fill filling 9 false instant.fraction
  | .unixSeconds => fill filling 9 false instant.seconds

/-- The fraction of the second behind a point, in groups of three digits as far as they are
needed. -/
def renderFraction (fraction : Nat) : Text :=
  if fraction = 0 then []
  else if fraction % 1000000 = 0 then '.' :: Text.lastDigits 3 (fraction / 1000000)
  else if fraction % 1000 = 0 then '.' :: Text.lastDigits 6 (fraction / 1000)
  else '.' :: Text.lastDigits 9 fraction

def renderFractionDigits (dot : Bool) (digits fraction : Nat) : Text :=
  (if dot then ['.'] else []) ++ Text.lastDigits digits (fraction / Nat.pow 10 (9 - digits))

/-- An offset with its sign. Styles without seconds round them to the nearest minute, the style of
whole hours drops all below the hour. -/
def renderOffset (style : OffsetStyle) (offset : Int) : Text :=
  let sign := if offset < 0 then '-' else '+'
  let size := offset.natAbs
  let minutes := (size + 30) / 60
  let two (n : Nat) := Text.lastDigits 2 n
  match style with
  | .plain => sign :: (two (minutes / 60) ++ two (minutes % 60))
  | .minutes => sign :: (two (minutes / 60) ++ [':'] ++ two (minutes % 60))
  | .hours => sign :: two (size / 3600)
  | .seconds =>
      sign :: (two (size / 3600) ++ [':'] ++ two (size / 60 % 60) ++ [':'] ++ two (size % 60))
  | .zone =>
      sign :: (two (size / 3600) ++ [':'] ++ two (size / 60 % 60) ++
        (if size % 60 = 0 then [] else ':' :: two (size % 60)))

def renderItem (instant : Instant) : Item → Text
  | .literal c => [c]
  | .number quantity filling => renderQuantity instant filling quantity
  | .monthName long => shorten long (monthNames[instant.date.month - 1]?.getD [])
  | .weekdayName long => shorten long (weekdayNames[weekday instant.day]?.getD [])
  | .halfDay capitals =>
      let name := if instant.hour < 12 then ['a', 'm'] else ['p', 'm']
      if capitals then name.map Char.toUpper else name
  | .fraction => renderFraction instant.fraction
  | .fractionDigits dot digits => renderFractionDigits dot digits instant.fraction
  | .offset style => renderOffset style instant.offset

def render (items : List Item) (instant : Instant) : Text := items.flatMap (renderItem instant)

theorem render_append (a b : List Item) (instant : Instant) :
    render (a ++ b) instant = render a instant ++ render b instant := by
  simp [render]

end Layout

end Logbook.Time
