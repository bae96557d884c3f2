import TreeExtraction.Node.Conversion

/-! # Samples

Two sample documents, each with the definition that converts it: a document by the name of its
definition, and the configuration of a service with a definition of its own.
-/

namespace TreeExtraction.Sample

open Builtin

def readme : Value :=
  .mapping [
    textEntry "type" "root",
    entry "children" (.list [
      .mapping [textEntry "type" "yaml", textEntry "value" "title: treelens"],
      .mapping [
        textEntry "type" "heading",
        entry "depth" (number 1),
        entry "children" (.list [
          .mapping [textEntry "type" "text", textEntry "value" "treelens"]]),
        entry "position" (.mapping [
          entry "start" (.mapping [entry "line" (number 1), entry "column" (number 1)]),
          entry "end" (.mapping [entry "line" (number 1), entry "column" (number 11)])])],
      .mapping [
        textEntry "type" "paragraph",
        entry "children" (.list [
          .mapping [textEntry "type" "text", textEntry "value" "Adapts "],
          .mapping [
            textEntry "type" "strong",
            entry "children" (.list [
              .mapping [textEntry "type" "text", textEntry "value" "any"]])],
          .mapping [textEntry "type" "text", textEntry "value" " nested tree."]]),
        entry "position" (.mapping [
          entry "start" (.mapping [entry "line" (number 3), entry "column" (number 1)]),
          entry "end" (.mapping [entry "line" (number 3), entry "column" (number 26)])])],
      .mapping [
        textEntry "type" "list",
        entry "ordered" (.bool false),
        entry "spread" (.bool false),
        entry "children" (.list [
          .mapping [
            textEntry "type" "listItem",
            entry "children" (.list [
              .mapping [
                textEntry "type" "paragraph",
                entry "children" (.list [
                  .mapping [
                    textEntry "type" "text",
                    textEntry "value" "Path expressions"]])]])],
          .mapping [
            textEntry "type" "listItem",
            entry "children" (.list [
              .mapping [
                textEntry "type" "paragraph",
                entry "children" (.list [
                  .mapping [
                    textEntry "type" "text",
                    textEntry "value" "Filters and templates"]])]])]])],
      .mapping [
        textEntry "type" "code",
        textEntry "lang" "ts",
        textEntry "value" "const tree = adaptTree(doc, 'mdast');",
        entry "data" (.mapping [textEntry "meta" "example"])]])]

def serviceDocument : Value :=
  .mapping [
    textEntry "kind" "app",
    textEntry "name" "gateway",
    entry "services" (.list [
      .mapping [
        textEntry "kind" "service",
        textEntry "name" "auth",
        entry "lines" (number 40),
        entry "routes" (.list [
          .mapping [
            textEntry "kind" "route",
            textEntry "path" "/login",
            entry "lines" (number 3)],
          .mapping [textEntry "kind" "routeInternal", textEntry "path" "/health"],
          .mapping [textEntry "kind" "comment", textEntry "name" "rate limits pending"]])],
      .mapping [
        textEntry "kind" "service",
        textEntry "name" "billing",
        textEntry "lines" "12",
        entry "meta" (.mapping [textEntry "owner" "payments"])]]),
    entry "notes" (.mapping [
      textEntry "kind" "comment",
      textEntry "name" "shared by all services"])]

def serviceDefinition : Value :=
  .mapping [
    entry "label" (.mapping [textEntry "path" "name", textEntry "fallback" "kind"]),
    textEntry "type" "kind",
    entry "children" (.mapping [
      entry "include" (textArray ["service", "route*"]),
      entry "exclude" (textArray ["routeInternal"])]),
    textEntry "content_lines" "lines",
    textEntry "extra" "meta",
    entry "icons" (.mapping [textEntry "app" "◈", textEntry "service" "⚙", textEntry "route" "→"]),
    entry "type_overrides" (.mapping [
      entry "route" (.mapping [
        entry "label" (.mapping [textEntry "path" "path", textEntry "transform" "upper"])])]),
    entry "ignore_types" (textArray ["comment"])]

def definitionKey : Text := units "definition"

def documentKey : Text := units "document"

def all : Table Value := [
  entry "markdown-readme"
    (.mapping [(definitionKey, .ofString "mdast"), (documentKey, readme)]),
  entry "service-config"
    (.mapping [(definitionKey, serviceDefinition), (documentKey, serviceDocument)])]

def list : List Text :=
  Table.keys all

/-- The sample of a name. The table of samples also answers to its inherited names. -/
def get (name : Text) : Except Failure Value :=
  match Table.lookUp all name with
  | .own v => .ok v
  | .inherited i => .ok i.value
  | .absent => .error (.unknownSample name list)

def part (sample : Value) (key : Text) : Value :=
  match sample with
  | .mapping es _ => Entries.get es key
  | _ => .undefined

def load [PureHost] [Validator] (name : Text) : Run Node := do
  let sample ← .lift (get name)
  adaptTree (part sample documentKey) (part sample definitionKey)

end TreeExtraction.Sample
