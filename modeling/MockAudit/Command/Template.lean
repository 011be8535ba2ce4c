namespace MockAudit.Command

def templatePath : String := "./mocklint.toml"

def templateLines : List String :=
  [ "# mocklint configuration",
    "",
    "# Master switch",
    "enabled = true",
    "",
    "# workspace | project | file | disabled",
    "scope = \"workspace\"",
    "# active_project = \"app\"",
    "# active_file = \"src/test/java/app/FooTest.java\"",
    "",
    "# recommended | errors-only",
    "preset = \"recommended\"",
    "",
    "[analyzer]",
    "# Directory searched for *.unit.json documents",
    "root = \".\"",
    "",
    "# Glob patterns to exclude from discovery",
    "exclude = [",
    "    \"**/target/**\",",
    "    \"**/build/**\",",
    "]",
    "",
    "# Respect .gitignore files",
    "respect_gitignore = true",
    "",
    "# Units analyzed in parallel (default: one per core)",
    "# parallelism = 4",
    "",
    "# Framework vocabulary (JMockit defaults)",
    "# [framework]",
    "# base_type = \"mockit.MockUp\"",
    "# mock_annotation = \"mockit.Mock\"",
    "# instance_accessor = \"getMockInstance\"",
    "",
    "# Rule configurations",
    "# Each rule can be enabled/disabled and have its severity overridden",
    "",
    "[rules.missing-mock-annotation]",
    "enabled = true",
    "",
    "[rules.private-mock-method]",
    "enabled = true",
    "# severity = \"warning\"" ]

def template : String := String.join (templateLines.map (· ++ "\n"))

def templateNotice : String :=
  "Created " ++ templatePath ++ "\n\nNext steps:\n"
    ++ "  1. Edit mocklint.toml to configure rules\n"
    ++ "  2. Export unit documents (*.unit.json) from your build\n"
    ++ "  3. Run: mocklint check\n"

end MockAudit.Command
