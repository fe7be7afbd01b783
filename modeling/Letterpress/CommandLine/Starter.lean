/-
  The files of a new project.

  * `starterConfig` is a configuration that says what the usual settings are.
  * `starterTemplate` is a template that shows blocks, tags and a conditional region.
-/

namespace Letterpress.CommandLine

/-- The lines as a text. -/
def textOfLines (lines : List String) : String := String.join (lines.map fun line => line ++ "\n")

/-- The configuration to start with. -/
def starterConfig : String := textOfLines
  ["# mailsmith configuration",
   "",
   "# Fallback settings for templates that do not define their own.",
   "[templates]",
   "font_family = \"Arial, sans-serif\"",
   "background_color = \"#f5f5f5\"",
   "content_background_color = \"#ffffff\"",
   "content_width = 600",
   "",
   "# Global merge tags, available to every template unless the render data",
   "# overrides them. A value is either the literal value or a table with",
   "# \x60value\x60, \x60label\x60, \x60description\x60 and \x60example\x60.",
   "[merge_tags]",
   "app_name = \"Acme\"",
   "app_url = \x7b value = \"https://example.com\", label = \"App URL\" \x7d",
   "",
   "[validation]",
   "# Refuse to render when a required tag has no value.",
   "required_tags = true",
   "",
   "# The process that turns MJML into HTML. It reads MJML on stdin.",
   "[compiler]",
   "command = \"mjml\"",
   "args = [\"-i\", \"-s\"]"]

/-- The template to start with. -/
def starterTemplate : String := textOfLines
  ["\x7b",
   "  \"name\": \"Welcome Email\",",
   "  \"subject\": \"Welcome to \x7b\x7bapp_name\x7d\x7d, \x7b\x7bname\x7d\x7d\",",
   "  \"previewText\": \"Thanks for signing up\",",
   "  \"content\": \x7b",
   "    \"version\": \"1.0\",",
   "    \"blocks\": [",
   "      \x7b",
   "        \"id\": \"8b0f4c1e-2d3a-4e5f-9a6b-7c8d9e0f1a2b\",",
   "        \"type\": \"heading\",",
   "        \"props\": \x7b \"content\": \"Welcome to \x7b\x7bapp_name\x7d\x7d\", \"level\": \"h1\" \x7d",
   "      \x7d,",
   "      \x7b",
   "        \"id\": \"1c2d3e4f-5a6b-4c7d-8e9f-0a1b2c3d4e5f\",",
   "        \"type\": \"text\",",
   "        \"props\": \x7b",
   "          \"content\": \"<p>Hi \x7b\x7bname|capitalize\x7d\x7d, thanks for joining.</p>" ++
     "\x7b\x7b#if plan\x7d\x7d<p>You are on the \x7b\x7bplan|uppercase\x7d\x7d plan.</p>\x7b\x7b/if\x7d\x7d\"",
   "        \x7d",
   "      \x7d,",
   "      \x7b",
   "        \"id\": \"9f8e7d6c-5b4a-4392-8170-6f5e4d3c2b1a\",",
   "        \"type\": \"button\",",
   "        \"props\": \x7b \"text\": \"Get started\", \"href\": \"\x7b\x7bapp_url\x7d\x7d\" \x7d",
   "      \x7d",
   "    ]",
   "  \x7d,",
   "  \"tags\": [",
   "    \x7b \"key\": \"name\", \"label\": \"Name\", \"type\": \"text\", \"required\": true \x7d,",
   "    \x7b \"key\": \"plan\", \"label\": \"Plan\", \"type\": \"text\" \x7d",
   "  ]",
   "\x7d"]

end Letterpress.CommandLine
