import Uart16550.Config.Basic
import Uart16550.Config.Numeral

/-!
# The command line

Options are written long (`--lines 2`, `--lines=2`) or short, where short ones may share a dash and
a value may follow its letter at once (`-vvl2`, `-l=2`, `-l 2`).

An option whose value was not attached takes the next word that is not itself an option. Its value
is looked at only when the next option takes effect, or at the end: so of two faults a word that no
option answers to is reported before a bad value in front of it.
-/

namespace Uart16550

namespace CommandLine

/-- Why a command line yields no configuration. -/
inductive Refusal where
  /-- A value is no number, or out of range. -/
  | valueValidation
  /-- No option answers to a word. -/
  | unknownArgument
  /-- An option was given twice that may be given once. -/
  | argumentConflict
  /-- An option lacks its value. -/
  | invalidValue
  /-- A value was attached to a switch. -/
  | tooManyValues
  /-- Help was asked for. -/
  | displayHelp
  /-- The version was asked for. -/
  | displayVersion
  deriving DecidableEq, Repr

/-- An option with a value. -/
inductive Setting where
  | lines
  | threshold
  deriving DecidableEq, Repr

/-- An option without a value. -/
inductive Switch where
  | loopback
  | noMetrics
  | verbose
  | help
  | version
  deriving DecidableEq, Repr

/-- What a name on the command line stands for. -/
inductive Flag where
  | setting (s : Setting)
  | switch (s : Switch)
  deriving DecidableEq, Repr

/-- The long names. -/
def longName? : String → Option Flag
  | "lines" => some (.setting .lines)
  | "threshold" => some (.setting .threshold)
  | "loopback" => some (.switch .loopback)
  | "no-metrics" => some (.switch .noMetrics)
  | "verbose" => some (.switch .verbose)
  | "help" => some (.switch .help)
  | "version" => some (.switch .version)
  | _ => none

/-- The short names. -/
def shortName? : Char → Option Flag
  | 'l' => some (.setting .lines)
  | 't' => some (.setting .threshold)
  | 'v' => some (.switch .verbose)
  | 'h' => some (.switch .help)
  | 'V' => some (.switch .version)
  | _ => none

/-- What has been read of a command line. -/
structure Progress where
  lines : Option UInt8 := none
  threshold : Option Nat := none
  loopback : Bool := false
  noMetrics : Bool := false
  /-- How often verbosity was asked for. -/
  verbose : Nat := 0
  /-- An option that waits to take effect, with its value once that was found. -/
  pending : Option (Setting × Option String) := none
  deriving DecidableEq, Repr

namespace Progress

/-- Sets an option to a value. -/
def store (p : Progress) (s : Setting) (text : String) : Except Refusal Progress :=
  match s with
  | .lines =>
    if p.lines.isSome then .error .argumentConflict
    else
      match Numeral.byte? text with
      | some n => .ok { p with lines := some n }
      | none => .error .valueValidation
  | .threshold =>
    if p.threshold.isSome then .error .argumentConflict
    else
      match Numeral.word? text with
      | some n => .ok { p with threshold := some n }
      | none => .error .valueValidation

/-- Lets the waiting option take effect. -/
def resolve (p : Progress) : Except Refusal Progress :=
  match p.pending with
  | none => .ok p
  | some (_, none) => .error .invalidValue
  | some (s, some text) => { p with pending := none }.store s text

/-- The effect of a switch, after that of the waiting option. -/
def switch (p : Progress) (s : Switch) : Except Refusal Progress :=
  match p.resolve with
  | .error e => .error e
  | .ok p =>
    match s with
    | .loopback =>
      if p.loopback then .error .argumentConflict else .ok { p with loopback := true }
    | .noMetrics =>
      if p.noMetrics then .error .argumentConflict else .ok { p with noMetrics := true }
    | .verbose => .ok { p with verbose := p.verbose + 1 }
    | .help => .error .displayHelp
    | .version => .error .displayVersion

/-- The effect of an option with its value, or without one yet, after that of the waiting
option. -/
def setting (p : Progress) (s : Setting) (attached : Option String) : Except Refusal Progress :=
  match p.resolve with
  | .error e => .error e
  | .ok p =>
    match attached with
    | some text => p.store s text
    | none => .ok { p with pending := some (s, none) }

/-- A long option: its name, and a value after the first equals sign. -/
def long (p : Progress) (body : List Char) : Except Refusal Progress :=
  let name := String.ofList (body.takeWhile (· != '='))
  let attached := match body.dropWhile (· != '=') with
    | [] => none
    | _ :: value => some (String.ofList value)
  match longName? name, attached with
  | none, _ => .error .unknownArgument
  | some (.setting s), attached => p.setting s attached
  | some (.switch _), some _ => .error .tooManyValues
  | some (.switch s), none => p.switch s

/-- Short options behind one dash. The first that needs a value takes the rest as its value,
without an equals sign in front. -/
def short (p : Progress) : List Char → Except Refusal Progress
  | [] => .ok p
  | c :: cs =>
    match shortName? c with
    | none => .error .unknownArgument
    | some (.switch s) =>
      match p.switch s with
      | .error e => .error e
      | .ok p => p.short cs
    | some (.setting s) =>
      match cs with
      | [] => p.setting s none
      | '=' :: value => p.setting s (some (String.ofList value))
      | value => p.setting s (some (String.ofList value))

/-- A word that is no option: the value of the waiting option, if that still lacks one. -/
def plain (p : Progress) (word : String) : Except Refusal Progress :=
  match p.pending with
  | some (s, none) => .ok { p with pending := some (s, some word) }
  | _ => .error .unknownArgument

/-- The configuration asked for; what was not asked for has its standard value, and nothing is
logged below warnings. The count of `--verbose` saturates. -/
def config (p : Progress) : Config where
  lines := p.lines.getD Config.standard.lines
  threshold := p.threshold.getD Config.standard.threshold
  loopback := p.loopback
  verbosity := UInt8.ofNat (min p.verbose 255)
  noMetrics := p.noMetrics

/-- Reads words to the end. After a lone double dash no word can be an option. -/
def words (p : Progress) : List String → Except Refusal Progress
  | [] => p.resolve
  | word :: rest =>
    match word.toList with
    | ['-', '-'] => if rest.isEmpty then p.resolve else .error .unknownArgument
    | '-' :: '-' :: body =>
      match p.long body with
      | .error e => .error e
      | .ok p => p.words rest
    | '-' :: c :: cs =>
      match p.short (c :: cs) with
      | .error e => .error e
      | .ok p => p.words rest
    | _ =>
      match p.plain word with
      | .error e => .error e
      | .ok p => p.words rest

end Progress

/-- The configuration that the words after the program's name ask for. -/
def parse (words : List String) : Except Refusal Config :=
  match Progress.words {} words with
  | .ok p => .ok p.config
  | .error e => .error e

end CommandLine

end Uart16550
