import FocalDesk.Capability.Policy
import FocalDesk.Library.BTreeMap

/-! Agent manifests, their validation and the agents the service ships with. -/
namespace FocalDesk
open Library

def agentManifestVersion : ℕ := 1

def maxAgentSteps : ℕ := 4

inductive AgentTriggerKind where
  | schedule
  | desktopEvent
  | voicePhrase
  | hotkey
  | ipcEvent
deriving DecidableEq, Repr

structure AgentTrigger where
  id : String
  kind : AgentTriggerKind
  objective : String
  matchValue : String
  intervalSeconds : Option ℕ
  cooldownSeconds : ℕ
  maxRunsPerHour : ℕ
  enabled : Bool
deriving DecidableEq

structure AgentDefinition where
  manifestVersion : ℕ
  id : String
  name : String
  description : String
  instructions : String
  toolAllowlist : List String
  maxToolSteps : ℕ
  maxContextChars : ℕ
  maxOutputTokens : ℕ
  timeoutSeconds : ℕ
  memory : Bool
  voice : Bool
  triggers : List AgentTrigger
  dailyTokenLimit : Option ℕ
  dailyCostLimitMicrousd : Option ℕ
  inputCostMicrousdPerMillion : Option ℕ
  outputCostMicrousdPerMillion : Option ℕ
  capabilityPolicy : Option CapabilityPolicy
  builtIn : Bool
deriving DecidableEq

/-- Which of the other trigger fields the kind of a trigger requires. -/
def AgentTrigger.validateKind (trigger : AgentTrigger) (voiceCapable : Bool) :
    Except String Unit :=
  match trigger.kind with
  | .schedule => do
    bailIf (trigger.matchValue ≠ "") "schedule trigger match_value must be empty"
    bailIf (¬ ∃ interval ∈ trigger.intervalSeconds, 60 ≤ interval ∧ interval ≤ 86400)
      "schedule trigger interval_seconds must be between 60 and 86400"
  | .voicePhrase => do
    bailIf (voiceCapable = false) "voice phrase trigger requires voice=true"
    bailIf (trim trigger.matchValue = "" ∨ trigger.intervalSeconds.isSome)
      "voice phrase trigger requires match_value and no interval"
  | .desktopEvent | .hotkey | .ipcEvent =>
    bailIf (trim trigger.matchValue = "" ∨ trigger.intervalSeconds.isSome)
      "event trigger requires match_value and no interval"

def AgentTrigger.validate (trigger : AgentTrigger) (voiceCapable : Bool) :
    Except String Unit := do
  validateId trigger.id "agent trigger"
  bailIf (trim trigger.objective = "" ∨ 4000 < charCount trigger.objective)
    "agent trigger objective must contain 1-4000 characters"
  bailIf (200 < charCount trigger.matchValue) "agent trigger match_value exceeds 200 characters"
  bailIf (86400 < trigger.cooldownSeconds) "agent trigger cooldown_seconds must not exceed 86400"
  bailIf (¬ (1 ≤ trigger.maxRunsPerHour ∧ trigger.maxRunsPerHour ≤ 60))
    "agent trigger max_runs_per_hour must be between 1 and 60"
  trigger.validateKind voiceCapable

def isToolName (tool : String) : Bool :=
  tool ≠ "" && byteLen tool ≤ 80 && allChars (fun c => isAsciiAlphanumeric c || c == '_') tool

def AgentDefinition.validate (urls : UrlParser) (definition : AgentDefinition) :
    Except String Unit := do
  bailIf (definition.manifestVersion ≠ agentManifestVersion)
    ("unsupported agent manifest version " ++ toString definition.manifestVersion ++
      "; supported version is " ++ toString agentManifestVersion)
  validateId definition.id "agent"
  bailIf (trim definition.name = "" ∨ 80 < charCount definition.name)
    "agent name must contain 1-80 characters"
  bailIf (500 < charCount definition.description ∨ 4000 < charCount definition.instructions)
    "agent description or instructions exceed the manifest limit"
  bailIf (¬ (1 ≤ definition.maxToolSteps ∧ definition.maxToolSteps ≤ maxAgentSteps))
    "agent max_tool_steps must be between 1 and 4"
  bailIf (¬ (8000 ≤ definition.maxContextChars ∧ definition.maxContextChars ≤ 128000))
    "agent max_context_chars must be between 8000 and 128000"
  bailIf (¬ (128 ≤ definition.maxOutputTokens ∧ definition.maxOutputTokens ≤ 4096))
    "agent max_output_tokens must be between 128 and 4096"
  bailIf (¬ (10 ≤ definition.timeoutSeconds ∧ definition.timeoutSeconds ≤ 120))
    "agent timeout_seconds must be between 10 and 120"
  bailIf (definition.toolAllowlist = [] ∨ 64 < definition.toolAllowlist.length)
    "agent tool_allowlist must contain 1-64 tools"
  bailIf (¬ definition.toolAllowlist.Nodup
      ∨ ∃ tool ∈ definition.toolAllowlist, isToolName tool = false)
    "agent tool_allowlist contains an invalid or duplicate tool name"
  bailIf (16 < definition.triggers.length) "agent manifest may define at most 16 triggers"
  bailIf (¬ (definition.triggers.map AgentTrigger.id).Nodup) "agent trigger ids must be unique"
  checkAll (fun trigger => trigger.validate definition.voice) definition.triggers
  bailIf (∃ limit ∈ definition.dailyTokenLimit, limit < 1000)
    "agent daily_token_limit must be at least 1000 when configured"
  bailIf (definition.dailyCostLimitMicrousd.isSome
      ∧ (definition.inputCostMicrousdPerMillion = none
        ∨ definition.outputCostMicrousdPerMillion = none))
    "agent daily cost limit requires input and output pricing"
  checkAll (CapabilityPolicy.validate urls) definition.capabilityPolicy.toList

def estimateAgentCost (definition : AgentDefinition) (input output : ℕ) : ℕ :=
  (input * definition.inputCostMicrousdPerMillion.getD 0 +
    output * definition.outputCostMicrousdPerMillion.getD 0) / 1000000

def builtInAgent (id name description instructions : String) (toolAllowlist : List String)
    (voice : Bool) : AgentDefinition :=
  { manifestVersion := agentManifestVersion, id, name, description, instructions, toolAllowlist,
    maxToolSteps := 4, maxContextChars := 48000, maxOutputTokens := 1024, timeoutSeconds := 120,
    memory := false, voice, triggers := [], dailyTokenLimit := none,
    dailyCostLimitMicrousd := none, inputCostMicrousdPerMillion := none,
    outputCostMicrousdPerMillion := none, capabilityPolicy := none, builtIn := true }

def builtInAgents : List AgentDefinition :=
  [builtInAgent "desktop" "Desktop Assistant"
      "Inspects FocalDesk and proposes explicitly confirmed desktop actions."
      "Prefer the smallest set of desktop inspections needed. Never claim that a proposed action already happened."
      ["get_session_status", "list_outputs", "get_output_details", "list_windows",
        "list_workspaces", "get_service_health", "get_rendering_status", "show_notification",
        "focus_window", "move_window_to_workspace", "open_settings_panel"] true,
    builtInAgent "troubleshooter" "System Troubleshooter"
      "Diagnoses session, service, display, and rendering problems without changing state."
      "Use diagnostic evidence only. Clearly distinguish observed failures from hypotheses."
      ["get_session_status", "list_outputs", "get_output_details", "get_service_health",
        "search_recent_logs", "get_rendering_status"] false,
    { builtInAgent "accessibility" "Accessibility Assistant"
        "Provides voice-friendly desktop inspection and navigation assistance."
        "Keep responses brief and suitable for speech. Describe the exact effect of every proposed action."
        ["get_session_status", "list_windows", "list_workspaces", "show_notification",
          "focus_window", "move_window_to_workspace", "open_settings_panel"] true with
      maxToolSteps := 3, maxContextChars := 32000, maxOutputTokens := 512, timeoutSeconds := 90 }]

end FocalDesk
