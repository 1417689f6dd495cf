/-
LogCalls/Fault.lean

Every way in which an operation can fail, by its cause, and the words that
report it.  A fault of the content or of the file system is contained by a run
over files; the others end it.
-/
import LogCalls.Issue
import LogCalls.Text.Utf8

namespace LogCalls

/-- Why the file system refuses to open a path. -/
inductive Refusal where
  | missing
  | notADirectory
  | isADirectory
  | nameTooLong
  /-- The file may not be read, or not be written. -/
  | denied
  deriving DecidableEq, Repr

/-- Number and wording of a refusal. -/
def Refusal.wording : Refusal → String
  | .missing => "[Errno 2] No such file or directory"
  | .denied => "[Errno 13] Permission denied"
  | .notADirectory => "[Errno 20] Not a directory"
  | .isADirectory => "[Errno 21] Is a directory"
  | .nameTooLong => "[Errno 36] File name too long"

/-- The part of a date or time that does not exist. -/
inductive CalendarPart where
  | year (n : Nat)
  | month
  | day
  | hour
  | minute
  | second
  | zone (minutes : Int)
  deriving DecidableEq, Repr

/-- The wording of a date or time that does not exist. -/
def CalendarPart.wording : CalendarPart → String
  | .year n => "year " ++ toString n ++ " is out of range"
  | .month => "month must be in 1..12"
  | .day => "day is out of range for month"
  | .hour => "hour must be in 0..23"
  | .minute => "minute must be in 0..59"
  | .second => "second must be in 0..59"
  | .zone minutes =>
    "offset must be a timedelta strictly between -timedelta(hours=24) and timedelta(hours=24), " ++
      "not datetime.timedelta(days=" ++ toString (minutes.fdiv 1440) ++
      (if minutes.fmod 1440 = 0 then "" else ", seconds=" ++ toString (60 * minutes.fmod 1440)) ++
      ")."

/-- The kinds of mistakes that show when a title is filled. -/
inductive Mistake where
  /-- A name or a part that has no value. -/
  | undefined
  | type
  | value
  | division
  | overflow
  | attribute
  | key
  | index
  | assertion
  /-- A word that names nothing where the title is worked out. -/
  | unnamed
  /-- A text that has no bytes in the wanted encoding. -/
  | encoding
  /-- Bytes that are no text in the wanted encoding. -/
  | decoding
  /-- A numeral that no value is written with. -/
  | numeral
  /-- Calls inside calls beyond the limit. -/
  | depth
  | running
  | memory
  /-- A word that stands for nothing known. -/
  | lookup
  /-- A template to be shown that is looked for among none. -/
  | template
  deriving DecidableEq, Repr

/-- The class under which a mistake is reported. -/
def Mistake.label : Mistake → String
  | .undefined => "UndefinedError"
  | .type => "TypeError"
  | .value => "ValueError"
  | .division => "ZeroDivisionError"
  | .overflow => "OverflowError"
  | .attribute => "AttributeError"
  | .key => "KeyError"
  | .index => "IndexError"
  | .assertion => "AssertionError"
  | .unnamed => "NameError"
  | .encoding => "UnicodeEncodeError"
  | .decoding => "UnicodeDecodeError"
  | .numeral => "SyntaxError"
  | .depth => "RecursionError"
  | .running => "RuntimeError"
  | .memory => "MemoryError"
  | .lookup => "LookupError"
  | .template => "TemplatesNotFound"

/-- Whether a mistake counts as one of the content or, as a template that is not
found, of the file system. -/
def Mistake.isContained : Mistake → Bool
  | .value | .encoding | .decoding | .template => true
  | _ => false

/-- The causes of failure. -/
inductive Fault where
  /-- A decimal word of more digits than are read. -/
  | tooManyDigits (count : Nat)
  /-- An integer of more digits than are written. -/
  | numeralTooLong
  /-- A word that is no integer in the given base. -/
  | noNumeral (base : Nat) (word : String)
  /-- A word that is no real. -/
  | noReal (word : String)
  /-- A code that no character has. -/
  | noCharacter
  /-- An edit that starts inside the one before it. -/
  | overlap (start stop next : Int)
  /-- A kind of atom that does not exist, as it was shown. -/
  | unknownKind (shown : String)
  /-- A path without a last part. -/
  | nameless (path : String)
  /-- A name that cannot be the last part of a path. -/
  | invalidName (name : String)
  /-- A path with a zero character. -/
  | zeroInPath
  /-- A setting whose dotted key has an empty part. -/
  | emptyKeyPart (spec : String)
  /-- A settings file that holds no mapping. -/
  | notAMapping (path kind : String)
  /-- A date or time that does not exist. -/
  | calendar (part : CalendarPart)
  /-- Bytes that are no text. -/
  | undecodable (flaw : Text.Utf8.Flaw)
  /-- A record that is not as expected. -/
  | invalid (record : String) (issues : List Issue)
  /-- A path that the file system does not open. -/
  | refused (refusal : Refusal) (path : String)
  /-- There is no room for all that is written. -/
  | deviceFull
  /-- A settings file that is in none of the places tried. -/
  | settingsMissing (spec : String) (tried : List String)
  /-- A mistake found while a title or a setting is worked out, with its wording. -/
  | mistaken (mistake : Mistake) (wording : String)
  | malformedTemplate
  | malformedPattern
  /-- A pattern that repeats something more often than can be counted. -/
  | repetitionTooLarge
  /-- A pattern that asks for the basic alphabet and for every script at once. -/
  | clashingAlphabets
  | malformedYaml
  /-- A tag in a text to be shown that closes nothing. -/
  | unbalanced (wording : String)
  /-- A line that a text does not have. -/
  | lineOutside (line : Int) (count : Nat)
  deriving DecidableEq, Repr

namespace Fault

/-- The number of decimal digits up to which integers are read and written. -/
def digitLimit : Nat := 4300

/-- The class under which a fault is reported. -/
def label : Fault → String
  | .undecodable _ => "UnicodeDecodeError"
  | .invalid .. => "ValidationError"
  | .refused .missing _ => "FileNotFoundError"
  | .refused .notADirectory _ => "NotADirectoryError"
  | .refused .isADirectory _ => "IsADirectoryError"
  | .refused .nameTooLong _ | .deviceFull => "OSError"
  | .refused .denied _ => "PermissionError"
  | .settingsMissing .. => "FileNotFoundError"
  | .mistaken mistake _ => mistake.label
  | .malformedTemplate => "TemplateError"
  | .malformedPattern => "re.error"
  | .repetitionTooLarge => "OverflowError"
  | .malformedYaml => "YAMLError"
  | .unbalanced _ => "MarkupError"
  | .lineOutside .. => "BadParameter"
  | _ => "ValueError"

/-- The words that report a fault. -/
def message : Fault → String
  | .tooManyDigits count =>
    "Exceeds the limit (" ++ toString digitLimit ++
      " digits) for integer string conversion: value has " ++ toString count ++
      " digits; use sys.set_int_max_str_digits() to increase the limit"
  | .numeralTooLong =>
    "Exceeds the limit (" ++ toString digitLimit ++
      " digits) for integer string conversion; use sys.set_int_max_str_digits() to increase the limit"
  | .noNumeral base word =>
    "invalid literal for int() with base " ++ toString base ++ ": " ++ Text.quoted word
  | .noReal word => "could not convert string to float: " ++ Text.quoted word
  | .noCharacter => "chr() arg not in range(0x110000)"
  | .overlap start stop next =>
    "Overlapping edits at offsets " ++ toString start ++ "-" ++ toString stop ++ " and " ++
      toString next
  | .unknownKind shown => shown ++ " is not a valid AtomKind"
  | .nameless path => "PosixPath(" ++ Text.quoted path ++ ") has an empty name"
  | .invalidName name => "Invalid name " ++ Text.quoted name
  | .zeroInPath => "embedded null byte"
  | .emptyKeyPart spec => "Invalid config key in " ++ Text.quoted spec
  | .notAMapping path kind => "Config file " ++ path ++ " must contain a mapping, got " ++ kind
  | .calendar part => part.wording
  | .undecodable flaw => flaw.message
  | .invalid record issues =>
    toString issues.length ++ " validation error" ++ (if issues.length = 1 then "" else "s") ++
      " for " ++ record
  | .refused refusal path => refusal.wording ++ ": " ++ Text.quoted path
  | .deviceFull => "[Errno 28] No space left on device"
  | .settingsMissing spec tried =>
    "Could not find config file for " ++ spec ++ " (tried: " ++ Text.quotedList tried ++ ")"
  | .mistaken _ wording => wording
  | .malformedTemplate => "malformed title template"
  | .malformedPattern => "malformed pattern"
  | .repetitionTooLarge => "the repetition number is too large"
  | .clashingAlphabets => "ASCII and UNICODE flags are incompatible"
  | .malformedYaml => "malformed YAML"
  | .unbalanced wording => wording
  | .lineOutside line count =>
    "Line " ++ toString line ++ " is outside of 1.." ++ toString count

/-- Whether a run over files contains the fault: it lies in the content of a
file or in the file system. -/
def isContained : Fault → Bool
  | .mistaken mistake _ => mistake.isContained
  | .malformedTemplate | .malformedPattern | .repetitionTooLarge | .malformedYaml
  | .unbalanced _ | .lineOutside .. => false
  | _ => true

/-- Whether a command reports the fault as one of the settings. -/
def isOfSettings : Fault → Bool
  | .refused .missing _ => true
  | .refused .. | .deviceFull | .mistaken .template _ => false
  | f => f.isContained

/-- What a summary says of a failed file. -/
def report (f : Fault) : String := f.label ++ ": " ++ f.message

end Fault

end LogCalls
