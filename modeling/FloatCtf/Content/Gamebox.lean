import FloatCtf.Content.Identity
import Mathlib.Data.Prod.Lex
import Mathlib.Data.String.Basic

/-!
# The specification of a GameBox

`validate` checks the manifest of a GameBox and `normalize` makes its specification, with the
health checks in an order of their own.
-/

namespace FloatCtf.Content

/-! ## The fields of all contents -/

/-- The difficulty of a challenge. -/
inductive Difficulty where
  | unknown
  | beginner
  | easy
  | medium
  | hard
  | expert
  deriving DecidableEq

/-- Resources as they are stored. -/
structure RecommendedResources where
  cpuMillis : Int
  memoryBytes : Int
  pidsLimit : Int
  deriving DecidableEq

/-- The resources of a gamebox that asks for none. -/
def gameboxDefaults : RecommendedResources := ⟨1000, 536870912, 100⟩

/-- Resources as they are written, each of them optional. -/
structure RecommendedResourcesInput where
  cpuMillis : Option Int
  memoryBytes : Option Int
  pidsLimit : Option Int
  deriving DecidableEq

/-- Fills in the defaults. -/
def RecommendedResourcesInput.materialize (r : RecommendedResourcesInput)
    (defaults : RecommendedResources) : RecommendedResources where
  cpuMillis := r.cpuMillis.getD defaults.cpuMillis
  memoryBytes := r.memoryBytes.getD defaults.memoryBytes
  pidsLimit := r.pidsLimit.getD defaults.pidsLimit

/-- The section on Docker. -/
structure DockerConfig where
  port : Option Nat
  recommendedResources : Option RecommendedResourcesInput
  deriving DecidableEq

/-- The resources that are asked for, or the defaults. -/
def DockerConfig.materializeResources (d : DockerConfig) (defaults : RecommendedResources) :
    RecommendedResources :=
  match d.recommendedResources with
  | some input => input.materialize defaults
  | none => defaults

/-- The errors of the validation. -/
inductive GameBoxMetaError where
  | emptyName
  | emptyAuthor
  | emptyCategory
  | emptyDescription
  | invalidVersion (reason : String)
  | invalidSafeName (raw : String)
  | safeNameRequired
  | invalidTag (tag : String)
  | emptyUsername
  | invalidHealthcheckPort (port : Nat)
  | invalidHealthcheckPath (path : String)
  | invalidExpectedStatus (status : Nat)
  | duplicateHealthcheck
  | invalidJudgePath (path reason : String)
  | invalidExploitPath (path reason : String)
  | invalidSourceCodeDir (dir reason : String)
  | invalidResource (field : String)
  | invalidPort (port : Nat)
  deriving DecidableEq

/-- A check that stops with an error. -/
def failIf (c : Bool) (e : GameBoxMetaError) : Except GameBoxMetaError Unit :=
  if c then .error e else .ok ()

/-- Nothing but whitespace. -/
def isBlank (s : String) : Bool := Text.trim s = ""

/-- A version has the form x.y.z. -/
def validateVersion (version : String) : Except GameBoxMetaError Unit :=
  failIf (!isValidVersion version)
    (.invalidVersion s!"invalid version '{version}' (expected x.y.z)")

/-- No tag is blank. -/
def validateTags : List String → Except GameBoxMetaError Unit
  | [] => .ok ()
  | tag :: tags => do
    failIf (isBlank tag) (.invalidTag tag)
    validateTags tags

/-- The port is not 0 and the resources are positive. -/
def validateDocker : Option DockerConfig → Except GameBoxMetaError Unit
  | none => .ok ()
  | some docker => do
    failIf (docker.port = some 0) (.invalidPort 0)
    match docker.recommendedResources with
    | none => .ok ()
    | some res => do
      failIf (res.cpuMillis.any (· ≤ 0)) (.invalidResource "cpu_millis")
      failIf (res.memoryBytes.any (· ≤ 0)) (.invalidResource "memory_bytes")
      failIf (res.pidsLimit.any (· ≤ 0)) (.invalidResource "pids_limit")

/-! ## The manifest -/

/-- A health check as it is written. -/
inductive GameBoxHealthcheck where
  | http (port : Nat) (path : String) (expectedStatus : Nat)
  | tcp (port : Nat)
  deriving DecidableEq

/-- The section on the gamebox. -/
structure GameBoxSection where
  username : String
  healthchecks : List GameBoxHealthcheck
  deriving DecidableEq

/-- The section on the judge. -/
structure JudgeManifest where
  script : String
  deriving DecidableEq

/-- The section on AWDP. -/
structure AwdpManifest where
  exploitScript : String
  sourceCodeDir : String
  deriving DecidableEq

/-- The metadata of a gamebox as it is written. -/
structure GameBoxMeta where
  name : String
  version : String
  author : String
  category : String
  difficulty : Difficulty
  tags : List String
  description : String
  safeName : Option String
  docker : Option DockerConfig
  gamebox : Option GameBoxSection
  judge : Option JudgeManifest
  awdp : Option AwdpManifest
  deriving DecidableEq

/-- A health check as it is stored. -/
inductive NormalizedHealthcheck where
  | http (port : Nat) (path : String) (expectedStatus : Nat)
  | tcp (port : Nat)
  deriving DecidableEq

/-- The specification as it is stored. -/
structure NormalizedGameBoxSpec where
  name : String
  version : String
  author : String
  category : String
  difficulty : Difficulty
  tags : List String
  description : String
  safeName : String
  username : Option String
  healthchecks : List NormalizedHealthcheck
  recommendedResources : RecommendedResources
  judgeScript : Option String
  exploitScript : Option String
  sourceCodeDir : Option String
  deriving DecidableEq

/-! ## Validation -/

/-- The checks that every kind of content has. -/
def validateContentFields (m : GameBoxMeta) : Except GameBoxMetaError Unit := do
  failIf (isBlank m.name) .emptyName
  failIf (isBlank m.author) .emptyAuthor
  failIf (isBlank m.category) .emptyCategory
  failIf (isBlank m.description) .emptyDescription
  validateVersion m.version
  validateTags m.tags
  validateDocker m.docker

/-- The safe name that is written or derived. -/
def resolvedSafeName (u : Unicode) (m : GameBoxMeta) (contentId : String) :
    Except GameBoxMetaError String :=
  match resolveSafeName u contentId m.safeName with
  | .ok name => .ok name
  | .error (.invalid raw) => .error (.invalidSafeName raw)
  | .error .underivable => .error .safeNameRequired

/-- `contains("..")`. -/
def hasDotDot (s : String) : Bool := "..".toList <:+: s.toList

/-- `validate_script_path`, for a directory with a slash behind its name. -/
def validateScriptPath (path dir : String) (err : String → GameBoxMetaError) :
    Except GameBoxMetaError Unit := do
  failIf (path = "") (err "empty path")
  failIf (path.toList.head? = some '/' || path.toList.head? = some '\\') (err "must be relative")
  failIf ((Text.encode path)[1]? = some 58) (err "must be relative")
  failIf (!dir.toList.isPrefixOf path.toList) (err "must start with the expected directory")
  failIf (hasDotDot path) (err "must not contain '..'")
  failIf (path.toList.getLast? = some '/' || path.toList = dir.toList.rdropWhile (· = '/'))
    (err "must point to a file")

/-- The judge script lies under `judge/`. -/
def validateJudgePath (path : String) : Except GameBoxMetaError Unit :=
  validateScriptPath path "judge/" (.invalidJudgePath path)

/-- The exploit script lies under `awdp/`. -/
def validateAwdpPath (path : String) : Except GameBoxMetaError Unit :=
  validateScriptPath path "awdp/" (.invalidExploitPath path)

/-- The source directory is an absolute container path without a parent component. -/
def validateSourceCodeDir (dir : String) : Except GameBoxMetaError Unit := do
  failIf (dir = "") (.invalidSourceCodeDir dir "empty path")
  failIf (dir.toList.head? ≠ some '/')
    (.invalidSourceCodeDir dir "must be an absolute container path (start with '/')")
  failIf (hasDotDot dir) (.invalidSourceCodeDir dir "must not contain '..'")
  failIf (1 < (Text.encode dir).length && dir.toList.getLast? = some '/')
    (.invalidSourceCodeDir dir "must not end with '/'")

/-- A health check as it stands in the specification; its debug text is its key among the ones that
were seen. -/
def GameBoxHealthcheck.normalize : GameBoxHealthcheck → NormalizedHealthcheck
  | .http port path expectedStatus => .http port path expectedStatus
  | .tcp port => .tcp port

/-- The checks of one entry on its own. -/
def validateHealthcheck : GameBoxHealthcheck → Except GameBoxMetaError Unit
  | .http port path expectedStatus => do
    failIf (port = 0) (.invalidHealthcheckPort port)
    failIf (path.toList.head? ≠ some '/') (.invalidHealthcheckPath path)
    failIf (expectedStatus < 100 || 599 < expectedStatus) (.invalidExpectedStatus expectedStatus)
  | .tcp port => failIf (port = 0) (.invalidHealthcheckPort port)

/-- Every health check is valid and none is given twice. -/
def validateHealthchecks (seen : List NormalizedHealthcheck) :
    List GameBoxHealthcheck → Except GameBoxMetaError Unit
  | [] => .ok ()
  | hc :: hcs => do
    validateHealthcheck hc
    failIf (hc.normalize ∈ seen) .duplicateHealthcheck
    validateHealthchecks (hc.normalize :: seen) hcs

/-- The section on the gamebox, where there is one. -/
def validateGamebox : Option GameBoxSection → Except GameBoxMetaError Unit
  | none => .ok ()
  | some gamebox => do
    failIf (isBlank gamebox.username) .emptyUsername
    validateHealthchecks [] gamebox.healthchecks

/-- The section on the judge, where there is one. -/
def validateJudge : Option JudgeManifest → Except GameBoxMetaError Unit
  | none => .ok ()
  | some judge => validateJudgePath judge.script

/-- The section on AWDP, where there is one. -/
def validateAwdp : Option AwdpManifest → Except GameBoxMetaError Unit
  | none => .ok ()
  | some awdp => do
    validateAwdpPath awdp.exploitScript
    validateSourceCodeDir awdp.sourceCodeDir

/-- `validate`: the checks in the order of the source. -/
def GameBoxMeta.validate (u : Unicode) (m : GameBoxMeta) (contentId : String) :
    Except GameBoxMetaError Unit := do
  validateContentFields m
  let _ ← resolvedSafeName u m contentId
  validateGamebox m.gamebox
  validateJudge m.judge
  validateAwdp m.awdp

/-! ## The specification -/

/-- HTTP before TCP, then by port and path. -/
def compareHealthchecks : NormalizedHealthcheck → NormalizedHealthcheck → Ordering
  | .http pa aPath _, .http pb bPath _ => (compare pa pb).then (compare aPath bPath)
  | .tcp pa, .tcp pb => compare pa pb
  | .http .., .tcp _ => .lt
  | .tcp _, .http .. => .gt

/-- The stable sort of the entries. -/
def sortHealthchecks (hcs : List NormalizedHealthcheck) : List NormalizedHealthcheck :=
  hcs.mergeSort fun a b => (compareHealthchecks a b).isLE

/-- The declared health checks. -/
def GameBoxMeta.healthchecks (m : GameBoxMeta) : List GameBoxHealthcheck :=
  (m.gamebox.map (·.healthchecks)).getD []

/-- `normalize`: the specification of metadata that is valid. -/
def GameBoxMeta.normalize (u : Unicode) (m : GameBoxMeta) (contentId : String) :
    Except GameBoxMetaError NormalizedGameBoxSpec := do
  m.validate u contentId
  let safeName ← resolvedSafeName u m contentId
  return {
    name := m.name
    version := m.version
    author := m.author
    category := m.category
    difficulty := m.difficulty
    tags := m.tags
    description := m.description
    safeName
    username := m.gamebox.map (·.username)
    healthchecks := sortHealthchecks (m.healthchecks.map GameBoxHealthcheck.normalize)
    recommendedResources :=
      (m.docker.map (·.materializeResources gameboxDefaults)).getD gameboxDefaults
    judgeScript := m.judge.map (·.script)
    exploitScript := m.awdp.map (·.exploitScript)
    sourceCodeDir := m.awdp.map (·.sourceCodeDir) }

end FloatCtf.Content
