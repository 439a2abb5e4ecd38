import Mathlib.Logic.Function.Basic
import KitMuduo.DecimalText
import KitMuduo.LogFormatter

/-!
# Loggers and their appenders

A `Logger` hands each record to its appenders one after another, under a mutex
of its own; an appender formats the record under its mutex and puts the text
into its stream.  Threads log through the same loggers, loggers share
appenders, and appenders, levels and formatters change while records are on
their way.  A stream takes a text in as many portions as it likes, and others
print to `std::cout` as well: the constructor of a formatter and the rest of the
program.
-/

namespace KitMuduo

open DecimalText

inductive LogLevel
  | UNKNOW
  | DEBUG
  | INFO
  | WARN
  | ERROR
  | FATAL
  deriving DecidableEq

namespace LogLevel

def toNat : LogLevel → Nat
  | UNKNOW => 0
  | DEBUG => 1
  | INFO => 2
  | WARN => 3
  | ERROR => 4
  | FATAL => 5

def ToString : LogLevel → Bytes
  | UNKNOW => ascii "UNKNOW"
  | DEBUG => ascii "DEBUG"
  | INFO => ascii "INFO"
  | WARN => ascii "WARN"
  | ERROR => ascii "ERROR"
  | FATAL => ascii "FATAL"

end LogLevel

/-- What the items of a formatter read of a record. -/
structure LogAttr where
  timeStamp : Nat := 0
  elapse : Nat := 0
  level : LogLevel
  line : Int := 0
  threadName : Bytes := []
  pid : Int := 0
  fileName : Bytes := []
  content : Bytes := []
  loggerName : Bytes := []
  moduleName : Bytes := []
  deriving DecidableEq

/-- `getFileBaseName`: what follows the last slash or backslash. -/
def LogAttr.getFileBaseName (attr : LogAttr) : Bytes :=
  (attr.fileName.reverse.takeWhile fun byte => byte ≠ 47 ∧ byte ≠ 92).reverse

/-- `%03d` of a number below a thousand. -/
def threeDigits (number : Nat) : Bytes :=
  List.replicate (3 - (digits number).length) 48 ++ digits number

/-- `format` of the items.  `strftime` is what `localtime_r` and `strftime`
make of a format and a number of seconds. -/
def FormatItem.format (strftime : Bytes → Nat → Bytes) (attr : LogAttr) :
    FormatItem → Bytes
  | .newLine => [10]
  | .content => attr.content
  | .level => attr.level.ToString
  | .elapse => digits attr.elapse
  | .threadId => signedDigits attr.pid
  | .tab => [9]
  | .threadName => attr.threadName
  | .dateTime timeFormat =>
      strftime timeFormat (attr.timeStamp / 1000) ++
        46 :: threeDigits (attr.timeStamp % 1000)
  | .file => attr.getFileBaseName
  | .line => signedDigits attr.line
  | .logName => attr.loggerName
  | .moduleName =>
      if attr.moduleName = [] then ascii "null" else attr.moduleName
  | .string str => str

def LogFormatter.format (strftime : Bytes → Nat → Bytes)
    (items : List FormatItem) (attr : LogAttr) : Bytes :=
  items.flatMap (·.format strftime attr)

/-- A `ConsoleAppender`, or a `FileAppender` with the state of its file. -/
structure LogAppender where
  isFile : Bool := false
  level : LogLevel := .DEBUG
  formatter : Option (List FormatItem) :=
    some (LogFormatter.init (ascii "[%d][%p][%f #%l][%g.%mo]<%t:%tn> %m"))
  isOpen : Bool := false
  curSize : Nat := 0
  writeMaxSize : Nat := 1024 * 1024

namespace LogAppender

/-- `log` up to the stream: the text it puts there.  `reopens` is what `reopen`
would return. -/
def log (strftime : Bytes → Nat → Bytes) (reopens : Bool)
    (appender : LogAppender) (attr : LogAttr) : LogAppender × Bytes :=
  if attr.level.toNat < appender.level.toNat then
    (appender, [])
  else if appender.isFile = true then
    if appender.isOpen = true ∨ reopens = true then
      match appender.formatter with
      | none => ({ appender with isOpen := true }, [])
      | some items =>
          let log_data := LogFormatter.format strftime items attr
          ({ appender with
            isOpen := true
            curSize := appender.curSize + log_data.length }, log_data)
    else
      (appender, [])
  else
    match appender.formatter with
    | none => (appender, [])
    | some items => (appender, LogFormatter.format strftime items attr)

/-- The file is flushed behind a text that fills it up. -/
def flushes (appender : LogAppender) : Bool :=
  appender.isFile = true ∧ appender.writeMaxSize ≤ appender.curSize

end LogAppender

/-- Where a thread is: in front of `log`, in front of the logger's mutex, in the
loop over the appenders with those that are left, or in an appender with what
it still has to put into the stream. -/
inductive LogPlace (L A : Type*)
  | outside
  | destroying (logger : L) (attr : LogAttr)
  | waiting (logger : L) (attr : LogAttr)
  | inLoop (logger : L) (attr : LogAttr) (left : List (Option A))
  | writing (logger : L) (attr : LogAttr) (appender : A) (text : Bytes)
      (left : List (Option A))
  deriving DecidableEq

/-- A record that an appender was handed: by which logger, what the appender
was then, and what `reopen` would have returned. -/
structure HandedRecord (L : Type*) where
  logger : L
  attr : LogAttr
  appender : LogAppender
  reopens : Bool

/-- What has to be in the stream of it: the record as the appender's formatter
prints it, unless its level is too low, its file cannot be opened or there is no
formatter. -/
def HandedRecord.text {L : Type*} (strftime : Bytes → Nat → Bytes)
    (record : HandedRecord L) : Bytes :=
  if record.attr.level.toNat < record.appender.level.toNat then
    []
  else if record.appender.isFile = true ∧ record.appender.isOpen = false ∧
      record.reopens = false then
    []
  else
    (record.appender.formatter.map fun items =>
      LogFormatter.format strftime items record.attr).getD []

/-- Loggers `L`, appenders `A`, threads `T` and streams `S`.  `taken` records
what each logger took on and the appenders it had then, `handed` what each
appender was handed, and `foreign` what was printed to a stream that is no
record. -/
structure Logging (L A T S : Type*) where
  level : L → LogLevel
  appenders : L → List (Option A)
  appendersMtx : L → Option T := fun _ => none
  appender : A → LogAppender
  formatterMtx : A → Option T := fun _ => none
  place : T → LogPlace L A := fun _ => .outside
  streams : S → Bytes := fun _ => []
  flushed : S → Nat := fun _ => 0
  taken : L → List (LogAttr × List (Option A)) := fun _ => []
  handed : A → List (HandedRecord L) := fun _ => []
  foreign : S → Bytes := fun _ => []

namespace Logging

variable {L A T S : Type*} [DecidableEq L] [DecidableEq A] [DecidableEq T]
  [DecidableEq S]

inductive Action (L A T : Type*)
  /-- A logging statement ends, and its `LogAttrWrap` is destroyed. -/
  | output (thread : T) (logger : L) (attr : LogAttr)
  | log (thread : T)
  | lock (thread : T)
  | append (thread : T) (reopens : Bool)
  | put (thread : T) (count : Nat)
  | appended (thread : T)
  | unlock (thread : T)
  | addAppender (logger : L) (appender : Option A)
  | delAppender (logger : L) (appender : Option A)
  | setFomatter (appender : A) (formatter : Option (List FormatItem))
  /-- The overload of `setFomatter` for a pattern. -/
  | setPattern (appender : A) (pattern : Bytes)
  /-- The program prints to `std::cout`. -/
  | print (text : Bytes)
  | setLevel (logger : L) (level : LogLevel)

def move (s : Logging L A T S) (thread : T) (place : LogPlace L A) :
    Logging L A T S :=
  { s with place := Function.update s.place thread place }

/-- The thread has the logger's mutex. -/
def lockLogger (s : Logging L A T S) (thread : T) (logger : L)
    (attr : LogAttr) : Logging L A T S :=
  { s with
    appendersMtx := Function.update s.appendersMtx logger (some thread)
    taken := Function.update s.taken logger
      (s.taken logger ++ [(attr, s.appenders logger)]) }.move thread
        (.inLoop logger attr (s.appenders logger))

/-- The thread has the appender's mutex. -/
def beginAppend (strftime : Bytes → Nat → Bytes) (s : Logging L A T S)
    (thread : T) (reopens : Bool) (logger : L) (attr : LogAttr) (appender : A)
    (left : List (Option A)) : Logging L A T S :=
  let logged := (s.appender appender).log strftime reopens attr
  { s with
    formatterMtx := Function.update s.formatterMtx appender (some thread)
    appender := Function.update s.appender appender logged.1
    handed := Function.update s.handed appender
      (s.handed appender ++
        [HandedRecord.mk logger attr (s.appender appender) reopens]) }.move
          thread (.writing logger attr appender logged.2 left)

/-- The stream takes the next bytes of the text. -/
def putText (stream : A → S) (s : Logging L A T S) (thread : T) (count : Nat)
    (logger : L) (attr : LogAttr) (appender : A) (text : Bytes)
    (left : List (Option A)) : Logging L A T S :=
  { s with
    streams := Function.update s.streams (stream appender)
      (s.streams (stream appender) ++ text.take count) }.move thread
        (.writing logger attr appender (text.drop count) left)

/-- The text is in the stream. -/
def endAppend (stream : A → S) (s : Logging L A T S) (thread : T) (logger : L)
    (attr : LogAttr) (appender : A) (left : List (Option A)) :
    Logging L A T S :=
  let s' := { s with
    formatterMtx := Function.update s.formatterMtx appender none }.move thread
      (.inLoop logger attr left)
  if (s.appender appender).flushes = true then
    { s' with
      appender := Function.update s.appender appender
        { s.appender appender with curSize := 0 }
      flushed := Function.update s.flushed (stream appender)
        (s.streams (stream appender)).length }
  else
    s'

def unlockLogger (s : Logging L A T S) (thread : T) (logger : L) :
    Logging L A T S :=
  { s with
    appendersMtx := Function.update s.appendersMtx logger none }.move thread
      .outside

def setFormatter (s : Logging L A T S) (appender : A)
    (formatter : Option (List FormatItem)) : Logging L A T S :=
  { s with
    appender := Function.update s.appender appender
      { s.appender appender with formatter := formatter } }

def printTo (s : Logging L A T S) (cout : S) (text : Bytes) :
    Logging L A T S :=
  { s with
    streams := Function.update s.streams cout (s.streams cout ++ text)
    foreign := Function.update s.foreign cout (s.foreign cout ++ text) }

/-- A step; `stream` is the stream of each appender, which is `cout` for those
that write to the console. -/
def step (strftime : Bytes → Nat → Bytes) (cout : S) (stream : A → S)
    (s : Logging L A T S) : Action L A T → Option (Logging L A T S)
  | .output thread logger attr =>
      match s.place thread with
      | .outside =>
          if (s.level logger).toNat ≤ attr.level.toNat then
            some (s.move thread (.destroying logger attr))
          else
            some s
      | _ => none
  | .log thread =>
      match s.place thread with
      | .destroying logger attr =>
          if attr.level.toNat < (s.level logger).toNat then
            some (s.move thread .outside)
          else
            some (s.move thread (.waiting logger attr))
      | _ => none
  | .lock thread =>
      match s.place thread with
      | .waiting logger attr =>
          if s.appendersMtx logger = none then
            some (s.lockLogger thread logger attr)
          else
            none
      | _ => none
  | .append thread reopens =>
      match s.place thread with
      | .inLoop logger attr (none :: left) =>
          some (s.move thread (.inLoop logger attr left))
      | .inLoop logger attr (some appender :: left) =>
          if s.formatterMtx appender = none then
            some (s.beginAppend strftime thread reopens logger attr appender
              left)
          else
            none
      | _ => none
  | .put thread count =>
      match s.place thread with
      | .writing logger attr appender text left =>
          if 0 < count ∧ count ≤ text.length then
            some (s.putText stream thread count logger attr appender text left)
          else
            none
      | _ => none
  | .appended thread =>
      match s.place thread with
      | .writing logger attr appender [] left =>
          some (s.endAppend stream thread logger attr appender left)
      | _ => none
  | .unlock thread =>
      match s.place thread with
      | .inLoop logger _ [] =>
          some (s.unlockLogger thread logger)
      | _ => none
  | .addAppender logger appender =>
      if s.appendersMtx logger = none then
        some { s with
          appenders := Function.update s.appenders logger
            (s.appenders logger ++ [appender]) }
      else
        none
  | .delAppender logger appender =>
      if s.appendersMtx logger = none then
        some { s with
          appenders := Function.update s.appenders logger
            ((s.appenders logger).erase appender) }
      else
        none
  | .setFomatter appender formatter =>
      if s.formatterMtx appender = none then
        some (s.setFormatter appender formatter)
      else
        none
  | .setPattern appender pattern =>
      if s.formatterMtx appender = none then
        some ((s.printTo cout (LogFormatter.initPrints pattern)).setFormatter
          appender (some (LogFormatter.init pattern)))
      else
        none
  | .print text => some (s.printTo cout text)
  | .setLevel logger level =>
      some { s with level := Function.update s.level logger level }

end Logging

end KitMuduo
