import Rewards.Config.Basic

/-!
# The command line

Settings are given by flags, by variables of the environment, or not at all, in this order. An
argument is read when the next flag shows that it is complete, so a flag that is not known is
reported before a value that is not valid.
-/

namespace Rewards

/-- A setting that a flag can give. -/
inductive Setting where
  | runAddress
  | logLevel
  | jwtSecretKey
  | databaseUri
  | accrualSystemAddress
  | workers
  | jobsDelay
  | jobTimeout
  | queueCapacity
  | shutdownTimeout
deriving DecidableEq

namespace Setting

/-- All settings. -/
def all : List Setting :=
  [runAddress, logLevel, jwtSecretKey, databaseUri, accrualSystemAddress, workers, jobsDelay,
    jobTimeout, queueCapacity, shutdownTimeout]

/-- The long name of a flag. -/
def flag : Setting → String
  | .runAddress => "run-address"
  | .logLevel => "log-level"
  | .jwtSecretKey => "jwt-secret-key"
  | .databaseUri => "database-uri"
  | .accrualSystemAddress => "accrual-system-address"
  | .workers => "workers"
  | .jobsDelay => "jobs-delay-secs"
  | .jobTimeout => "job-timeout-secs"
  | .queueCapacity => "queue-capacity"
  | .shutdownTimeout => "shutdown-timeout-secs"

/-- The letter of a flag. -/
def letter? : Setting → Option Char
  | .runAddress => some 'a'
  | .logLevel => some 'l'
  | .jwtSecretKey => some 's'
  | .databaseUri => some 'd'
  | .accrualSystemAddress => some 'r'
  | _ => none

/-- The variable of the environment. -/
def envName? : Setting → Option String
  | .runAddress => some "RUN_ADDRESS"
  | .logLevel => some "LOG_LEVEL"
  | .jwtSecretKey => some "JWT_SECRET_KEY"
  | .databaseUri => some "DATABASE_URI"
  | .accrualSystemAddress => some "ACCRUAL_SYSTEM_ADDRESS"
  | _ => none

/-- The setting is a number. -/
def isNumber (s : Setting) : Bool := s.envName?.isNone

/-- The limit of a number. -/
def numberLimit : Nat := 1 <<< 64

/-- The value is one that the setting can have. -/
def accepts (s : Setting) (value : String) : Bool :=
  !s.isNumber || (Text.natural? numberLimit value.toList).isSome

/-- The setting with a long name. -/
def ofFlag? (name : List Char) : Option Setting := all.find? (·.flag.toList == name)

/-- The setting with a letter. -/
def ofLetter? (c : Char) : Option Setting := all.find? (·.letter? == some c)

end Setting

/-- Why a command line is refused. A request for help counts as a refusal. -/
inductive CommandLineError where
  | unknownArgument
  | missingValue
  | invalidValue
  | repeated
  | help
deriving DecidableEq

namespace CommandLine

/-- A flag that has been read but not yet entered, and its value if it has one. -/
structure Pending where
  setting : Setting
  value : Option String

/-- The values that are entered so far, and the flag that is not. -/
structure Progress where
  values : List (Setting × String)
  pending : Option Pending

/-- Enter the value of a flag. -/
def enter (values : List (Setting × String)) (p : Pending) :
    Except CommandLineError (List (Setting × String)) :=
  match p.value with
  | none => .error .missingValue
  | some value =>
      if (values.lookup p.setting).isSome then .error .repeated
      else if p.setting.accepts value then .ok (values ++ [(p.setting, value)])
      else .error .invalidValue

/-- Enter the pending flag. -/
def settle (p : Progress) : Except CommandLineError (List (Setting × String)) :=
  match p.pending with
  | none => .ok p.values
  | some pending => enter p.values pending

/-- Start a flag. A value that is attached to it is entered at once. -/
def start (p : Progress) (setting : Setting) (attached : Option (List Char)) :
    Except CommandLineError Progress := do
  let values ← settle p
  match attached with
  | none => return ⟨values, some ⟨setting, none⟩⟩
  | some value => return ⟨← enter values ⟨setting, some (String.ofList value)⟩, none⟩

/-- Ask for help. The flag before it is entered first. -/
def askForHelp (p : Progress) : Except CommandLineError Progress := do
  let _ ← settle p
  .error .help

/-- A long flag after its dashes. -/
def readLong (p : Progress) (cs : List Char) : Except CommandLineError Progress :=
  let (name, attached) := match Text.splitFirst? '=' cs with
    | some (name, value) => (name, some value)
    | none => (cs, none)
  match Setting.ofFlag? name with
  | some setting => start p setting attached
  | none =>
      if name = "help".toList ∧ attached.isNone then askForHelp p else .error .unknownArgument

/-- A short flag after its dash. -/
def readShort (p : Progress) (letter : Char) (rest : List Char) :
    Except CommandLineError Progress :=
  match Setting.ofLetter? letter with
  | some setting =>
      match rest with
      | [] => start p setting none
      | '=' :: value => start p setting (some value)
      | value => start p setting (some value)
  | none => if letter = 'h' then askForHelp p else .error .unknownArgument

/-- A word that is not a flag: the value of the flag before it. -/
def readValue (p : Progress) (word : String) : Except CommandLineError Progress :=
  match p.pending with
  | some ⟨setting, none⟩ => .ok { p with pending := some ⟨setting, some word⟩ }
  | _ => .error .unknownArgument

/-- Read the words of a command line. Two dashes alone end the flags, and nothing may follow. -/
def readWords (p : Progress) : List String → Except CommandLineError (List (Setting × String))
  | [] => settle p
  | word :: words =>
      match word.toList with
      | ['-', '-'] => if words.isEmpty then settle p else .error .unknownArgument
      | '-' :: '-' :: cs => do readWords (← readLong p cs) words
      | '-' :: letter :: rest => do readWords (← readShort p letter rest) words
      | _ => do readWords (← readValue p word) words

/-- The value of a setting from the flags or the environment. -/
def value? (values : List (Setting × String)) (environment : List (String × String))
    (s : Setting) : Option String :=
  values.lookup s <|> s.envName?.bind fun name => environment.lookup name

/-- Read a configuration from the words of a command line and the environment. -/
def read (words : List String) (environment : List (String × String)) :
    Except CommandLineError Config := do
  let values ← readWords ⟨[], none⟩ words
  let text (s : Setting) (default : String) : String :=
    (value? values environment s).getD default
  let number (s : Setting) (default : Nat) : Nat :=
    ((values.lookup s).bind fun v => Text.natural? Setting.numberLimit v.toList).getD default
  return {
    runAddress := text .runAddress "localhost:8081"
    logLevel := text .logLevel "info"
    jwtSecretKey := text .jwtSecretKey "secret"
    databaseUri := value? values environment .databaseUri
    accrualSystemAddress := text .accrualSystemAddress "http://localhost:8083"
    workers := number .workers 3
    jobsDelaySeconds := number .jobsDelay 10
    jobTimeoutSeconds := number .jobTimeout 10
    queueCapacity := number .queueCapacity 100
    shutdownTimeoutSeconds := number .shutdownTimeout 20 }

end CommandLine

end Rewards
