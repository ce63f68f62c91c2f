import ExtensionAudit.Rule.Basic
import ExtensionAudit.Rule.Tables
import ExtensionAudit.Text.Occurs

namespace ExtensionAudit.Rule

/-- The finding of a permission in one of the two tables; the table of high risk goes first. -/
def permissionFinding? (permission : String) : Option Finding :=
  match highRiskPermissions.lookup permission with
  | some reason => some {
      ruleId := "CRX-001"
      severity := .high
      title := "High-Risk Permission: " ++ permission
      description := "This extension has the " ++ permission ++ " permission. " ++ reason ++
        ". This could potentially be used maliciously to compromise security or privacy." }
  | none =>
    match mediumRiskPermissions.lookup permission with
    | some reason => some {
        ruleId := "CRX-001"
        severity := .medium
        title := "Medium-Risk Permission: " ++ permission
        description := "This extension has the " ++ permission ++ " permission. " ++ reason ++ "." }
    | none => none

/-- One finding for each declared permission that is in a table, in order of declaration. -/
def permissionRisk : Rule where
  info := {
    id := "CRX-001"
    name := "Permission Risk"
    description :=
      "Requests a permission with broad access to browsing data or browser control"
    defaultSeverity := .high }
  findings target := target.manifest.permissions.filterMap permissionFinding?

/-- Requests that can both be seen and be blocked. -/
def blockingRequests : Rule where
  info := {
    id := "CRX-002"
    name := "Dangerous Permission Combination"
    description := "Can intercept and block web requests in real time"
    defaultSeverity := .high }
  findings target :=
    let declared := target.manifest.permissions.contains
    if declared "webRequest" && declared "webRequestBlocking" then
      [{ ruleId := "CRX-002"
         severity := .high
         title := "Dangerous Permission Combination: webRequest + webRequestBlocking"
         description := "This extension can intercept, modify, and block web requests in " ++
          "real-time. This combination could be used to modify sensitive web traffic or steal " ++
          "data." }]
    else []

/-- Whether a host pattern contains a pattern that matches everything. A star is one of those, so
every pattern with a star counts. -/
def isBroadHost (host : String) : Bool :=
  matchEverything.any (contains host)

def broadHosts : Rule where
  info := {
    id := "CRX-003"
    name := "Broad Host Permissions"
    description := "Host permissions cover many or all websites"
    defaultSeverity := .high }
  findings target :=
    if target.manifest.hostPermissions.any isBroadHost then
      [{ ruleId := "CRX-003"
         severity := .high
         title := "Broad Host Permissions"
         description := "This extension has broad host permissions allowing it to access many " ++
          "or all websites. This could potentially be used to steal sensitive data or track " ++
          "browsing activity." }]
    else []

/-- Whether a host pattern names a site where much is at stake; letter case matters. -/
def isSensitiveHost (host : String) : Bool :=
  sensitiveNames.any (contains host)

/-- One finding that lists every sensitive host pattern. -/
def sensitiveDomains : Rule where
  info := {
    id := "CRX-004"
    name := "Access to Sensitive Domains"
    description := "Host permissions name high-value financial, social, or developer sites"
    defaultSeverity := .medium }
  findings target :=
    let hosts := target.manifest.hostPermissions.filter isSensitiveHost
    if hosts.isEmpty then []
    else
      [{ ruleId := "CRX-004"
         severity := .medium
         title := "Access to Sensitive Domains"
         description := "This extension requests access to sensitive domains: " ++
          ", ".intercalate hosts ++
          ". Ensure you trust this extension with access to these sites." }]

/-- Whether a content script is injected everywhere. Unlike a host pattern, a match pattern must be
one of the patterns that match everything. -/
def isBroadScript (script : ContentScript) : Bool :=
  script.patterns.any matchEverything.contains

def broadContentScripts : Rule where
  info := {
    id := "CRX-005"
    name := "Broad Content Script Injection"
    description := "Injects content scripts into every website"
    defaultSeverity := .high }
  findings target :=
    if (target.manifest.contentScripts.getD []).any isBroadScript then
      [{ ruleId := "CRX-005"
         severity := .high
         title := "Broad Content Script Injection"
         description := "This extension can inject scripts into any website. This means it " ++
          "could potentially read sensitive data, modify website content, or steal credentials." }]
    else []

def olderFormat : Rule where
  info := {
    id := "CRX-006"
    name := "Older Manifest Version"
    description := "Uses a manifest version with fewer security restrictions than V3"
    defaultSeverity := .medium }
  findings target :=
    if target.manifest.formatVersion < 3 then
      [{ ruleId := "CRX-006"
         severity := .medium
         title := "Older Manifest Version"
         description := "This extension uses Manifest Version " ++
          target.manifest.declaredVersion.getD "(unspecified)" ++
          ", which has fewer security restrictions than Manifest V3. Consider using extensions " ++
          "that have upgraded to V3." }]
    else []

/-- At most one finding; leave for WebAssembly goes before leave for text. -/
def contentSecurityPolicy : Rule where
  info := {
    id := "CRX-007"
    name := "Content Security Policy Risk"
    description := "Content Security Policy permits dynamic code or WebAssembly evaluation"
    defaultSeverity := .high }
  findings target :=
    let allows (value : String) :=
      target.manifest.contentSecurityPolicy.any (contains · value)
    if allows wasmUnsafeEval then
      [{ ruleId := "CRX-007"
         severity := .high
         title := "Unsafe WebAssembly Execution"
         description := "This extension's Content Security Policy allows 'wasm-unsafe-eval', " ++
          "which permits potentially dangerous WebAssembly code execution. This could be used " ++
          "to hide malicious code or perform CPU-intensive operations." }]
    else if allows unsafeEval then
      [{ ruleId := "CRX-007"
         severity := .high
         title := "Unsafe JavaScript Evaluation"
         description := "This extension's Content Security Policy allows 'unsafe-eval', which " ++
          "permits dynamic JavaScript code execution using eval() and similar functions. This " ++
          "is a significant security risk as it could allow execution of malicious code." }]
    else []

def battery : List Rule :=
  [permissionRisk, blockingRequests, broadHosts, sensitiveDomains, broadContentScripts,
    olderFormat, contentSecurityPolicy]

def evaluate (target : Target) : List Finding :=
  battery.flatMap (·.findings target)

end ExtensionAudit.Rule
