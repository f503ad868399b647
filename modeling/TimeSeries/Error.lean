import TimeSeries.Text.Quoted
import TimeSeries.Text.Integer

/-!
# Errors

Every operation that can fail fails with an `Error`. It says what kind of failure it is and, for
input that was refused, bytes that could not be decoded and settings that contradict each other,
what exactly was wrong. The wording is the business of `Error.message` alone.
-/

namespace TimeSeries

open Text (quoted)

/-- The two parts of a tag. -/
inductive TagPart where
  | key
  | value
  deriving DecidableEq, Repr

/-- Why input was refused. -/
inductive Invalid where
  | writeWidth (width : Nat)
  | readWidth (width : Nat)
  | timeOutsideCode (time : Int)
  | deltaOfDelta (change : Int)
  | timeOutsideStore (time : Int)
  | blankTagPart (part : TagPart)
  | spacedTagPart (part : TagPart) (text : String)
  | keyWithEquals (key : String)
  | malformedTag (raw : String)
  | blankMetricName
  | spacedMetricName (name : String)
  | notAnIngestLine (line : String)
  | shortIngestLine (line : String)
  | badTimestamp (token : String) (fault : Text.IntegerFault)
  | badValue (token : String)
  | blankMatcherKey
  | exactWithoutValue (key : String)
  | wildcardWithoutStar (pattern : String)
  | badRegex (pattern : String)
  | unknownAggregation (text : String)
  | emptyQueryMetric
  | repeatedMatcherKey (key : String)
  | emptyQuery
  | malformedQueryTag (raw : String)
  | staleCutoff (cutoff : Int)
  | readOnlyCutoff (cutoff : Int)
  | oversizedRecord (length : Nat)
  | stated (text : String)
  deriving DecidableEq, Repr

/-- Why bytes could not be decoded. -/
inductive Malformed where
  | readPastEnd (width position length : Nat)
  | truncated (need have_ : Nat)
  | negativeWordCount (count : Int)
  | offsetOutOfRange (offset : Nat)
  | offsetOnEmptyStream
  | negativePointCount (count : Int)
  | trailingBytes (count : Nat)
  | timestampOverflow (point : Nat)
  | timestampOutOfRange (time : Int) (point : Nat)
  | meaningfulBits (count : Int) (point : Nat)
  | stated (text : String)
  deriving DecidableEq, Repr

/-- Which setting is wrong. -/
inductive Misconfigured where
  | dataset (text : String)
  | chunkDuration (seconds : Int)
  | spillPath (path : String)
  | metricsDelay (seconds : Int)
  | staleDelay (stale metrics : Int)
  | lifecycleInterval
  | stated (text : String)
  deriving DecidableEq, Repr

/-- Why the file system refused an operation. -/
inductive DiskFault where
  | notFound
  | alreadyExists
  | notADirectory
  | isADirectory
  | shortRead
  | notText
  | stated (text : String)
  deriving DecidableEq, Repr

/-- How stored bytes turned out to have changed. -/
inductive Corruption where
  /-- A record has another checksum than when it was written. -/
  | checksum (path : String) (expected found : Nat)
  | stated (text : String)
  deriving DecidableEq, Repr

/-- What an object does not offer. -/
inductive Unsupported where
  | pointForFrozenStore (series : Nat)
  | stated (text : String)
  deriving DecidableEq, Repr

/-- The failure of an operation. -/
inductive Error where
  /-- The caller's input is wrong. -/
  | invalid (why : Invalid)
  /-- The data comes too late: its chunk takes no more points. -/
  | readOnlyInsertion (dataset : String)
  /-- A bit stream or a serialized series cannot be decoded. -/
  | malformed (why : Malformed)
  | unsupported (what : Unsupported)
  | closed (what : String)
  | io (fault : DiskFault)
  | lock (text : String)
  | misconfigured (why : Misconfigured)
  | background (text : String)
  /-- Stored bytes have changed. -/
  | corrupt (how : Corruption) (series : Option Nat)
  | internal (text : String)
  deriving DecidableEq, Repr

/-- What an operation answers, beside the state that it leaves behind. A failing operation may
leave traces, so the state is there in both cases. -/
abbrev Outcome (σ α : Type) := Except Error α × σ

/-! ## Wording -/

/-- A tag part, as messages call it. -/
def TagPart.name : TagPart → String
  | .key => "key"
  | .value => "value"

/-- What was wrong with the input, in words. -/
def Invalid.message : Invalid → String
  | .writeWidth width => s!"bit width must be within 1..=64, got {width}"
  | .readWidth width => s!"bit width must be within 0..=64, got {width}"
  | .timeOutsideCode time => s!"timestamp {time} outside 0..=2147483647"
  | .deltaOfDelta change => s!"delta of delta {change} does not fit the 32-bit encoding"
  | .timeOutsideStore time => s!"timestamp {time} outside [0, 2147483647]"
  | .blankTagPart part => s!"tag {part.name} must not be blank"
  | .spacedTagPart part text => s!"tag {part.name} {quoted text} must not contain whitespace"
  | .keyWithEquals key => s!"tag key {quoted key} must not contain '='"
  | .malformedTag raw => s!"malformed tag {quoted raw}: expected key=value"
  | .blankMetricName => "metric name must not be blank"
  | .spacedMetricName name => s!"metric name {quoted name} must not contain whitespace"
  | .notAnIngestLine line => s!"ingest line must start with 'put': {quoted line}"
  | .shortIngestLine line => s!"ingest line needs a metric, timestamp and value: {quoted line}"
  | .badTimestamp token fault => s!"bad timestamp {quoted token}: {fault.message}"
  | .badValue token => s!"bad value {quoted token}: invalid float literal"
  | .blankMatcherKey => "tag key must not be blank"
  | .exactWithoutValue key => s!"exact matcher on {quoted key} needs a value"
  | .wildcardWithoutStar pattern => s!"wildcard pattern {quoted pattern} must contain '*'"
  | .badRegex pattern => s!"invalid regex {quoted pattern}"
  | .unknownAggregation text => s!"unknown aggregation {quoted text}"
  | .emptyQueryMetric => "query metric name must not be empty"
  | .repeatedMatcherKey key => s!"only one matcher allowed per tag key, {quoted key} repeats"
  | .emptyQuery => "empty query"
  | .malformedQueryTag raw => s!"malformed query tag {quoted raw}"
  | .staleCutoff cutoff => s!"stale data cutoff must be positive, got {cutoff}"
  | .readOnlyCutoff cutoff => s!"read-only cutoff must be positive, got {cutoff}"
  | .oversizedRecord length => s!"value of {length} bytes is too large"
  | .stated text => text

/-- What was wrong with the bytes, in words. -/
def Malformed.message : Malformed → String
  | .readPastEnd width position length =>
    s!"read of {width} bits at offset {position} exceeds stream length {length}"
  | .truncated need have_ => s!"truncated buffer: need {need} bytes, have {have_}"
  | .negativeWordCount count => s!"negative bit stream word count {count}"
  | .offsetOutOfRange offset => s!"bit offset {offset} out of range"
  | .offsetOnEmptyStream => "bit offset set on an empty bit stream"
  | .negativePointCount count => s!"negative point count {count}"
  | .trailingBytes count => s!"{count} trailing bytes after serialized series"
  | .timestampOverflow point => s!"timestamp overflow at point {point}"
  | .timestampOutOfRange time point => s!"decoded timestamp {time} out of range at point {point}"
  | .meaningfulBits count point => s!"invalid meaningful bit count {count} at point {point}"
  | .stated text => text

/-- What was wrong with the settings, in words. -/
def Misconfigured.message : Misconfigured → String
  | .dataset text =>
    s!"dataset prefix must be non-empty without whitespace, got {quoted text}"
  | .chunkDuration seconds => s!"chunk duration must be positive, got {seconds}"
  | .spillPath path => s!"spill path {path} is not a directory"
  | .metricsDelay seconds => s!"metrics delay must not be negative, got {seconds}"
  | .staleDelay stale metrics =>
    s!"stale data delay ({stale}s) must not be shorter than metrics delay ({metrics}s)"
  | .lifecycleInterval => "lifecycle run interval must be positive"
  | .stated text => text

/-- The refusal of the file system, in words. -/
def DiskFault.message : DiskFault → String
  | .notFound => "No such file or directory (os error 2)"
  | .alreadyExists => "File exists (os error 17)"
  | .notADirectory => "Not a directory (os error 20)"
  | .isADirectory => "Is a directory (os error 21)"
  | .shortRead => "failed to fill whole buffer"
  | .notText => "stream did not contain valid UTF-8"
  | .stated text => text

/-- What happened to the stored bytes, in words. -/
def Corruption.message : Corruption → String
  | .checksum path expected found =>
    s!"CRC mismatch in {path} (expected {hexWord expected}, got {hexWord found})"
  | .stated text => text
where
  /-- The eight hexadecimal digits of a number of 32 bits. -/
  hexWord (n : Nat) : String :=
    let digits := Nat.toDigits 16 n
    String.ofList (List.replicate (8 - digits.length) '0' ++ digits)

/-- What is not offered, in words. -/
def Unsupported.message : Unsupported → String
  | .pointForFrozenStore series => s!"cannot add a point for series {series} to a read-only store"
  | .stated text => text

/-- The whole message of an error. -/
def Error.message : Error → String
  | .invalid why => s!"Invalid argument: {why.message}"
  | .readOnlyInsertion dataset => s!"Cannot insert into read-only chunk {dataset}"
  | .malformed why => s!"Parse error: {why.message}"
  | .unsupported what => s!"Unsupported operation: {what.message}"
  | .closed what => s!"Store is closed: {what}"
  | .io fault => s!"I/O Error: {fault.message}"
  | .lock text => s!"Lock acquisition failed: {text}"
  | .misconfigured why => s!"Configuration Error: {why.message}"
  | .background text => s!"Background task error: {text}"
  | .corrupt how _ => s!"Corruption detected: {how.message}"
  | .internal text => s!"Internal error: {text}"

/-- The message of an error of the file system without the name of its kind. -/
def Error.detail : Error → String
  | .io fault => fault.message
  | e => e.message

/-- Whether the caller's input is at fault. -/
def Error.isInvalid : Error → Bool
  | .invalid _ => true
  | _ => false

/-- Whether the data came too late. -/
def Error.isReadOnlyInsertion : Error → Bool
  | .readOnlyInsertion _ => true
  | _ => false

end TimeSeries
