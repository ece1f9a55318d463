import Sitewright.Json.Writer
import Sitewright.Text.Split

namespace Sitewright.Enhancement

def systemPrompt : String := Text.join "\n" [
  "You are enhancing an existing website builder project. The user will provide:",
  "1. A project JSON structure containing pages, components, and styling",
  "2. An enhancement request",
  "",
  "Your task is to:",
  "- Understand the current project structure",
  "- Apply the requested enhancements while maintaining JSON structure integrity",
  "- Return ONLY the enhanced project JSON, nothing else",
  "- Preserve all existing IDs unless creating new components",
  "- Maintain the project structure format exactly",
  "",
  "Important: Return ONLY valid JSON. Do not include any explanatory text, markdown formatting, " ++
    "or code blocks."]

def userPrompt (project : Json) (instruction : String) : String := Text.join "\n" [
  "Current Project:",
  project.indented true 0,
  "",
  "Enhancement Request:",
  instruction,
  "",
  "Please return the enhanced project JSON."]

def message (role content : String) : Json :=
  .obj [("role", .str role), ("content", .str content)]

def messages (project : Json) (instruction : String) : Json :=
  .arr [message "system" systemPrompt, message "user" (userPrompt project instruction)]

/-- The content of an answer: its own, that of its message, or the whole answer. -/
def content (answer : Json) : Json :=
  match answer with
  | .obj fields =>
    let own := Fields.value fields "content"
    let inner := Fields.value ((Fields.value fields "message").asObject?.getD []) "content"
    if own.isTruthy then own else if inner.isTruthy then inner else answer
  | _ => answer

end Sitewright.Enhancement
