import Culina.Device
import Culina.Programs
import Culina.RecipeValidation

/-!
The command line of the simulator. One grammar serves scenario files and the console: a line is cut into
words, and the first of them says what is done to the device or asked of it. A line that is refused changes
nothing.
-/
namespace Culina.CommandLine

open Wire CStrings Crc Services Cooking CookingController Sessions Programs RecipeParser RecipeValidation
open Lid Simulator

/-! Words and numbers. -/

/-- The words that a stream reads, with what has been read of the next one. -/
def words (token : List Char8) : List Char8 → List (List Char8)
  | [] => if token = [] then [] else [token]
  | c :: rest =>
      if isSpace c then if token = [] then words [] rest else token :: words [] rest
      else words (token ++ [c]) rest

def tokenize (line : List Char8) : List (List Char8) := words [] line

/-- The number that a float is written for, before it is rounded. -/
def unrounded (text : List Char8) : Option ℚ :=
  let text := (sign (text.dropWhile isSpace)).2
  let hexadecimal :=
    if (codes ['0', 'x']).isPrefixOf (text.map lower) then
      number hexDigit 16 2 (code 'p') (text.drop 2)
    else none
  (hexadecimal.orElse fun _ => number digit 10 10 (code 'e') text).map Prod.fst

/-- Numbers below the normal floats are out of range, unless a float holds them as they are. -/
def Underflows (q : ℚ) : Prop := single q ≠ 0 ∧ |single q| < 1 / 2 ^ 126 ∧ (q * 2 ^ 149).den ≠ 1

instance (q : ℚ) : Decidable (Underflows q) := inferInstanceAs (Decidable (_ ∧ _))

/-- What is too large for a float is above `max` as well. -/
def parseFloat (text : List Char8) (min max : ℚ) : Option ℚ :=
  match strtof text with
  | some (.finite value, []) =>
      if (∃ q ∈ unrounded text, Underflows q) ∨ value < min ∨ value > max then none else some value
  | _ => none

/-- Of a word; what is too large for 64 bits is above `max` as well. -/
def parseUnsigned (text : List Char8) (max : ℕ) : Option ℕ :=
  if text.head? = some (code '-') then none
  else
    match strtol text with
    | some (value, []) => if value < 0 ∨ value > max then none else some value.toNat
    | _ => none

def kMaxU32 : ℕ := 2 ^ 32 - 1

/-- What a unit is worth in milliseconds. -/
def multiplier (unit : List Char8) : Option ℕ :=
  if unit = codes ['s'] then some 1000
  else if unit = codes ['m'] then some 60000
  else if unit ≠ [] ∧ unit ≠ codes ['m', 's'] then none
  else some 1

def parseDurationMs (text : List Char8) : Option ℕ :=
  let (digits, unit) := text.span fun c => (digit c).isSome
  match multiplier unit with
  | none => none
  | some worth => (parseUnsigned digits (kMaxU32 / worth)).map (· * worth)

/-! Names. -/

def sessionStateName : SessionState → List Char8
  | .idle => codes ['i', 'd', 'l', 'e']
  | .running => codes ['r', 'u', 'n', 'n', 'i', 'n', 'g']
  | .stopping => codes ['s', 't', 'o', 'p', 'p', 'i', 'n', 'g']
  | .done => codes ['d', 'o', 'n', 'e']
  | .faulted => codes ['F', 'A', 'U', 'L', 'T']

def programName : Option AnyProgram → List Char8
  | none => codes ['n', 'o', 'n', 'e']
  | some (.manual _) => codes ['m', 'a', 'n', 'u', 'a', 'l']
  | some (.dough _) => codes ['d', 'o', 'u', 'g', 'h']
  | some (.sousVide _) => codes ['s', 'o', 'u', 's', '-', 'v', 'i', 'd', 'e']
  | some (.steam _) => codes ['s', 't', 'e', 'a', 'm']
  | some (.turbo _) => codes ['t', 'u', 'r', 'b', 'o']
  | some (.recipe program) => program.recipe.name

/-- The lid as the application sees it. -/
def lidName (flags : Byte) : List Char8 :=
  if flags &&& kFlagLidLocked ≠ 0 then codes ['l', 'o', 'c', 'k', 'e', 'd']
  else if flags &&& kFlagLidClosed ≠ 0 then codes ['c', 'l', 'o', 's', 'e', 'd']
  else codes ['o', 'p', 'e', 'n']

/-! Commands. -/

/-- The device with what the command line keeps about it. -/
structure CommandEnv where
  sys : SystemSim AnyProgram
  recipes : RecipeLibrary
  expectFailures : ℕ := 0
  quitRequested : Bool := false

namespace CommandEnv

def refuse (env : CommandEnv) : Bool × CommandEnv := (false, env)

def act (env : CommandEnv) (action : SystemSim.Action AnyProgram) : Bool × CommandEnv :=
  (true, { env with sys := env.sys.next action })

def store (env : CommandEnv) : TelemetryStore := env.sys.app.mcu.store

def startProgram (env : CommandEnv) (program : AnyProgram) : Bool × CommandEnv :=
  env.act (.start (some program))

end CommandEnv

open CommandEnv

def viscosityFor (ingredient : List Char8) : ℚ :=
  if ingredient = codes ['w', 'a', 't', 'e', 'r'] then 1
  else if ingredient = codes ['o', 'i', 'l'] then single (9 / 5)
  else if ingredient = codes ['f', 'l', 'o', 'u', 'r'] ∨ ingredient = codes ['d', 'o', 'u', 'g', 'h'] then
    13 / 2
  else 2

def handleAdd (env : CommandEnv) (args : List (List Char8)) : Bool × CommandEnv :=
  match args with
  | [ingredient, text] =>
      match parseFloat text (single (1 / 10)) (2200 - env.sys.rig.board.sensors.scale.trueMassG) with
      | some grams => env.act (.touch (.add grams (viscosityFor ingredient)))
      | none => env.refuse
  | _ => env.refuse

/-- What can be expected: a number or a text. -/
inductive Actual where
  | numeric (actual : ℚ)
  | text (actual : List Char8)

def measure (env : CommandEnv) (metric : List Char8) : Option Actual :=
  if metric = codes ['t', 'e', 'm', 'p'] then some (.numeric (single (toCelsius env.store.latest.deciCelsius)))
  else if metric = codes ['a', 'v', 'g', '-', 't', 'e', 'm', 'p'] then
    some (.numeric (env.store.averageTempC 2000))
  else if metric = codes ['r', 'p', 'm'] then some (.numeric env.store.latest.rpm)
  else if metric = codes ['w', 'e', 'i', 'g', 'h', 't'] then
    some (.numeric (single env.store.latest.grams))
  else if metric = codes ['s', 't', 'a', 't', 'e'] then
    some (.text (sessionStateName env.sys.app.state))
  else if metric = codes ['p', 'r', 'o', 'g', 'r', 'a', 'm'] then
    some (.text (programName env.sys.app.program))
  else if metric = codes ['l', 'i', 'd'] then some (.text (lidName env.store.latest.flags))
  else none

def compareNumbers (op : List Char8) (actual want : ℚ) : Option Bool :=
  if op = codes ['>', '='] then some (actual ≥ want)
  else if op = codes ['<', '='] then some (actual ≤ want)
  else if op = codes ['>'] then some (actual > want)
  else if op = codes ['<'] then some (actual < want)
  else if op = codes ['=', '='] then some (actual = want)
  else if op = codes ['!', '='] then some (actual ≠ want)
  else none

def compareTexts (op actual expected : List Char8) : Option Bool :=
  if op = codes ['=', '='] then some (actual = expected)
  else if op = codes ['!', '='] then some (actual ≠ expected)
  else none

/-- Whether the expectation holds; `none` when it makes no sense. -/
def evaluate (env : CommandEnv) (metric op expected : List Char8) : Option Bool :=
  match measure env metric with
  | none => none
  | some (.numeric actual) =>
      match parseFloat expected (-1000000) 1000000 with
      | none => none
      | some want => compareNumbers op actual want
  | some (.text actual) => compareTexts op actual expected

def handleExpect (env : CommandEnv) (args : List (List Char8)) : Bool × CommandEnv :=
  match args with
  | [metric, op, expected] =>
      match evaluate env metric op expected with
      | none => env.refuse
      | some true => (true, env)
      | some false => (true, { env with expectFailures := env.expectFailures + 1 })
  | _ => env.refuse

/-- The image that is verified, and the one it is compared with. -/
def otaImage (kib : ℕ) : List Byte := (List.range (kib * 1024)).map fun i => BitVec.ofNat 8 (i * 13 + 5)

def corrupted (image : List Byte) : List Byte := image.modify (image.length / 2) (· ^^^ 0xFF)

def handleOta (env : CommandEnv) (args : List (List Char8)) : Bool × CommandEnv :=
  if env.sys.app.state ≠ .idle ∧ env.sys.app.state ≠ .done ∨
      (∃ ota ∈ env.sys.app.ota, ota.busy = true) ∨ args.length > 2 then env.refuse
  else
    let kib := match args with
      | [] => some 512
      | text :: _ => parseUnsigned text 65536
    match kib with
    | none => env.refuse
    | some kib =>
        if kib = 0 ∨ args.length = 2 ∧ args.getLast? ≠ some (codes ['c', 'o', 'r', 'r', 'u', 'p', 't']) then
          env.refuse
        else
          let image := otaImage kib
          let crc := crc16Ccitt image kCrcSeed
          env.act (.verify (if args.length = 2 then corrupted image else image) crc)

/-- A temperature that the heater can be asked for, or zero. -/
def parseTarget (text : List Char8) : Option ℚ :=
  match parseFloat text 0 160 with
  | some celsius => if celsius > 0 ∧ celsius < 37 then none else some celsius
  | none => none

/-- The product with ten is rounded to a float like the value itself. -/
def toTarget (celsius : ℚ) : DeciCelsius := fromCelsius (single (celsius * 10) / 10)

def parseMinutes (text : List Char8) : Option ℕ :=
  match parseUnsigned text 1440 with
  | some minutes => if minutes = 0 then none else some minutes
  | none => none

def seconds (minutes : ℕ) : BitVec 32 := BitVec.ofNat 32 (minutes * 60)

def setTemp (env : CommandEnv) (args : List (List Char8)) : Bool × CommandEnv :=
  match args with
  | [text] =>
      match parseTarget text with
      | some celsius =>
          env.act (.direct (if celsius ≤ 0 then .heaterOff else .setHeater (toTarget celsius)))
      | none => env.refuse
  | _ => env.refuse

def setSpeed (env : CommandEnv) (args : List (List Char8)) : Bool × CommandEnv :=
  match args with
  | [text] =>
      match parseUnsigned text 10 with
      | some dial => env.act (.direct (.setMotor (dialToRpm dial) kRampNormal))
      | none => env.refuse
  | _ => env.refuse

def manual (env : CommandEnv) (args : List (List Char8)) : Bool × CommandEnv :=
  match args with
  | [target, speed, time] =>
      match parseTarget target, parseUnsigned speed 10, parseMinutes time with
      | some celsius, some dial, some minutes =>
          env.startProgram (.manual (ManualMode.ofSeconds (toTarget celsius) dial (seconds minutes)))
      | _, _, _ => env.refuse
  | _ => env.refuse

/-- The programs that are only given a time. -/
def timed (program : BitVec 32 → AnyProgram) (env : CommandEnv) (args : List (List Char8)) : Bool × CommandEnv :=
  match args with
  | [time] =>
      match parseMinutes time with
      | some minutes => env.startProgram (program (seconds minutes))
      | none => env.refuse
  | _ => env.refuse

def dough (env : CommandEnv) (args : List (List Char8)) : Bool × CommandEnv :=
  timed (fun time => .dough (DoughMode.ofSeconds time)) env args

def steam (env : CommandEnv) (args : List (List Char8)) : Bool × CommandEnv :=
  timed (fun time => .steam (SteamMode.ofSeconds time)) env args

def sousVide (env : CommandEnv) (args : List (List Char8)) : Bool × CommandEnv :=
  match args with
  | [target, time] =>
      match parseFloat target 37 90, parseMinutes time with
      | some celsius, some minutes =>
          env.startProgram (.sousVide (SousVideMode.ofSeconds (toTarget celsius) (seconds minutes)))
      | _, _ => env.refuse
  | _ => env.refuse

def turbo (env : CommandEnv) (args : List (List Char8)) : Bool × CommandEnv :=
  match args with
  | [pulse] =>
      match parseUnsigned pulse 2000 with
      | some pulseMs =>
          if pulseMs = 0 then env.refuse
          else env.startProgram (.turbo (TurboPulse.ofMillis (BitVec.ofNat 32 pulseMs)))
      | none => env.refuse
  | _ => env.refuse

/-- A recipe without steps is not started. -/
def load (env : CommandEnv) (args : List (List Char8)) : Bool × CommandEnv :=
  match args with
  | [] => env.refuse
  | args =>
      match env.recipes.find (content ([code ' '].intercalate args)) with
      | none => (true, env)
      | some recipe =>
          if recipe.stepCount = 0 then env.act (.start none) else env.startProgram (.recipe { recipe })

def lid (env : CommandEnv) (args : List (List Char8)) : Bool × CommandEnv :=
  match args with
  | [action] =>
      if action = codes ['o', 'p', 'e', 'n'] then env.act (.touch .openLid)
      else if action = codes ['c', 'l', 'o', 's', 'e'] then env.act (.touch .closeLid)
      else if action = codes ['l', 'o', 'c', 'k'] then env.act (.direct (.lockLid true))
      else if action = codes ['u', 'n', 'l', 'o', 'c', 'k'] then env.act (.direct (.lockLid false))
      else env.refuse
  | _ => env.refuse

/-- The device after some milliseconds. -/
def stepMs (sys : SystemSim AnyProgram) (ms : ℕ) : SystemSim AnyProgram :=
  (List.replicate ms SystemSim.Action.stepMs).foldl SystemSim.next sys

def kWait : List Char8 := codes ['w', 'a', 'i', 't']

def wait (env : CommandEnv) (args : List (List Char8)) : Bool × CommandEnv :=
  match args with
  | [text] =>
      match parseDurationMs text with
      | some ms => (true, { env with sys := stepMs env.sys ms })
      | none => env.refuse
  | _ => env.refuse

/-- Whether the line was accepted, and what it leaves. -/
def executeCommand (env : CommandEnv) (line : List Char8) : Bool × CommandEnv :=
  match tokenize line with
  | [] => (true, env)
  | cmd :: args =>
      if cmd.head? = some (code '#') then (true, env)
      else if cmd = codes ['h', 'e', 'l', 'p'] then (true, env)
      else if cmd = codes ['s', 't', 'a', 't', 'u', 's'] then (true, env)
      else if cmd = codes ['a', 'd', 'd'] then handleAdd env args
      else if cmd = codes ['s', 'e', 't', '-', 't', 'e', 'm', 'p'] then setTemp env args
      else if cmd = codes ['s', 'e', 't', '-', 's', 'p', 'e', 'e', 'd'] then setSpeed env args
      else if cmd = codes ['m', 'a', 'n', 'u', 'a', 'l'] then manual env args
      else if cmd = codes ['d', 'o', 'u', 'g', 'h'] then dough env args
      else if cmd = codes ['s', 't', 'e', 'a', 'm'] then steam env args
      else if cmd = codes ['s', 'o', 'u', 's', '-', 'v', 'i', 'd', 'e'] then sousVide env args
      else if cmd = codes ['t', 'u', 'r', 'b', 'o'] then turbo env args
      else if cmd = codes ['l', 'o', 'a', 'd'] then load env args
      else if cmd = codes ['n', 'e', 'x', 't'] then env.act .userNext
      else if cmd = codes ['s', 't', 'o', 'p'] then env.act .stop
      else if cmd = codes ['t', 'a', 'r', 'e'] then env.act (.direct .tare)
      else if cmd = codes ['w', 'e', 'i', 'g', 'h'] then (true, env)
      else if cmd = codes ['l', 'i', 'd'] then lid env args
      else if cmd = codes ['o', 't', 'a', '-', 'v', 'e', 'r', 'i', 'f', 'y'] then handleOta env args
      else if cmd = kWait then wait env args
      else if cmd = codes ['e', 'x', 'p', 'e', 'c', 't'] then handleExpect env args
      else if cmd = codes ['q', 'u', 'i', 't'] ∨ cmd = codes ['e', 'x', 'i', 't'] then
        (true, { env with quitRequested := true })
      else env.refuse

/-! Scenarios and the console. -/

/-- The lines of a stream, without their ends; what a failing read has left of a line is lost. -/
def readScript (fails : Bool) (front : List Char8) : List Char8 → List (List Char8)
  | [] => if front = [] ∨ fails = true then [] else [front]
  | c :: rest =>
      if c = code '\n' then front :: readScript fails [] rest else readScript fails (front ++ [c]) rest

/-- Whether a line was refused, and what the lines leave up to the one that quits. -/
def runLines (env : CommandEnv) : List (List Char8) → Bool × CommandEnv
  | [] => (false, env)
  | line :: rest =>
      let (accepted, env) := executeCommand env line
      if env.quitRequested then (!accepted, env)
      else
        let (parseError, env) := runLines env rest
        (!accepted || parseError, env)

def runScript (sys : SystemSim AnyProgram) (recipes : RecipeLibrary) (path : Option File) : Status × CommandEnv :=
  match path with
  | none => (.invalidArgument, { sys, recipes })
  | some file =>
      let (parseError, env) := runLines { sys, recipes } (readScript file.fails [] file.bytes)
      (if parseError then .invalidArgument else if env.expectFailures = 0 then .ok else .protocolError, env)

/-- The console takes lines of 255 characters at most, up to a terminator among them. -/
def converse (env : CommandEnv) : List Line → CommandEnv
  | [] => env
  | line :: rest =>
      let env := (executeCommand env (content line.text)).2
      if env.quitRequested then env else converse env rest

/-- Telemetry is seeded before the first line. -/
def runRepl (sys : SystemSim AnyProgram) (recipes : RecipeLibrary) (stdin : File) : CommandEnv :=
  converse { sys := stepMs sys 50, recipes } (stdin.lines 256)

end Culina.CommandLine
