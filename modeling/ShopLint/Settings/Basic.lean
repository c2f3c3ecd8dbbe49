import ShopLint.Host

/-!
The settings of the tool, as they are written in its configuration file, and what follows from those
that are left out.
-/

namespace ShopLint

structure LogSettings where
  level : String := ""
  disableTime : Option Bool := none
  jsonFormat : Option Bool := none
  includeLocation : Option Bool := none
  deriving DecidableEq, Repr, Inhabited

structure ProxySettings where
  host : String := ""
  port : Int := 0
  deriving DecidableEq, Repr, Inhabited

/-- Times are in nanoseconds; zero stands for the default. -/
structure HttpSettings where
  debug : Option Bool := none
  retryCount : Int := 0
  retryWait : Int := 0
  retryMaxWait : Int := 0
  timeout : Int := 0
  verify : Option Bool := none
  proxy : ProxySettings := {}
  deriving DecidableEq, Repr, Inhabited

/-- Lists that the command line extends. -/
structure ScanSettings where
  extensions : List String := []
  excludeDirs : List String := []
  excludeFiles : List String := []
  deriving DecidableEq, Repr, Inhabited

/-- The service that tells which rules it can fix. -/
structure FixerSettings where
  url : String := ""
  tokenEnv : String := ""
  deriving DecidableEq, Repr, Inhabited

structure ReportSettings where
  format : String := ""
  toolName : String := ""
  informationUri : String := ""
  deriving DecidableEq, Repr, Inhabited

structure Settings where
  log : LogSettings := {}
  http : HttpSettings := {}
  scan : ScanSettings := {}
  fixer : FixerSettings := {}
  report : ReportSettings := {}
  failOn : String := ""
  deriving DecidableEq, Repr, Inhabited

namespace Settings

/-- The file that is read from the working directory when no other is named. -/
def defaultFile : String := "magelint.yml"

def defaultToolName : String := "magelint"

def defaultInformationUri : String := "https://github.com/scan-io-git/magelint"

def orDefault (value fallback : String) : String := if value = "" then fallback else value

def toolName (s : Settings) : String := orDefault s.report.toolName defaultToolName

def informationUri (s : Settings) : String := orDefault s.report.informationUri defaultInformationUri

/-- The variable that holds the fixer's token unless the settings name another. -/
def defaultTokenEnv : String := "MAGELINT_FIXER_TOKEN"

def fixerToken (host : Host) (s : Settings) : String :=
  host.envVar (orDefault s.fixer.tokenEnv defaultTokenEnv)

/-- The switches that can be asked for by a dotted path, none of which need be set. -/
def switches (s : Settings) : List (String × Option Bool) := [
  ("Logger.DisableTime", s.log.disableTime),
  ("Logger.JSONFormat", s.log.jsonFormat),
  ("Logger.IncludeLocation", s.log.includeLocation),
  ("HTTPClient.Debug", s.http.debug),
  ("HTTPClient.TLSClientConfig.Verify", s.http.verify)]

/-- A switch by its path; a path that leads to none, or to one that is not set, has the default. -/
def switch (s : Settings) (path : String) (fallback : Bool) : Bool :=
  ((s.switches.lookup path).bind id).getD fallback

end Settings

/-- How a client for the web is set up. -/
structure ClientOptions where
  debug : Bool := false
  retryCount : Int := 3
  retryWait : Int := 1000000000
  retryMaxWait : Int := 2000000000
  timeout : Int := 10000000000
  insecure : Bool := false
  proxy : String := ""
  deriving DecidableEq, Repr, Inhabited

/-- The number, or the default for zero. -/
def orDefaultInt (value fallback : Int) : Int := if value = 0 then fallback else value

/-- The options of a client under the given settings. A proxy needs both a host and a port. -/
def HttpSettings.client (s : HttpSettings) : ClientOptions :=
  let defaults : ClientOptions := {}
  { debug := s.debug.getD defaults.debug
    retryCount := orDefaultInt s.retryCount defaults.retryCount
    retryWait := orDefaultInt s.retryWait defaults.retryWait
    retryMaxWait := orDefaultInt s.retryMaxWait defaults.retryMaxWait
    timeout := orDefaultInt s.timeout defaults.timeout
    insecure := !s.verify.getD true
    proxy := if s.proxy.host ≠ "" && s.proxy.port ≠ 0 then s!"{s.proxy.host}:{s.proxy.port}" else "" }

end ShopLint
