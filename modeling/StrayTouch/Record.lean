import StrayTouch.Fault

/-!
Log records: how urgent, from which part, and a text. The text is made when the record is shown,
and making it may fail; a record of a failure carries its cause.
-/
namespace StrayTouch

inductive Source where
  | settings
  | gesture
  | verdict
  | engine
  | tuning
  | commandLine
  deriving DecidableEq

def Source.name : Source → String
  | settings => "falsetouch.config.settings"
  | gesture => "falsetouch.core.classifier_data"
  | verdict => "falsetouch.classifiers.human_interaction"
  | engine => "falsetouch.core.engine"
  | tuning => "falsetouch.utils.logger"
  | commandLine => "falsetouch.main"

namespace Level

def debug : Int := 10
def info : Int := 20
def warning : Int := 30
def error : Int := 40
def critical : Int := 50

def name (level : Int) : String :=
  if level == critical then "CRITICAL"
  else if level == error then "ERROR"
  else if level == warning then "WARNING"
  else if level == info then "INFO"
  else if level == debug then "DEBUG"
  else if level == 0 then "NOTSET"
  else "Level " ++ toString level

end Level

structure Record where
  level : Int
  source : Source
  text : Except Fault String
  cause : Option Fault

namespace Record

def debug (source : Source) (text : String) : Record :=
  ⟨Level.debug, source, .ok text, none⟩

def info (source : Source) (text : String) : Record :=
  ⟨Level.info, source, .ok text, none⟩

def warning (source : Source) (text : String) : Record :=
  ⟨Level.warning, source, .ok text, none⟩

def error (source : Source) (text : String) : Record :=
  ⟨Level.error, source, .ok text, none⟩

end Record

end StrayTouch
