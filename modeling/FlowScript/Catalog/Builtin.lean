import FlowScript.Catalog.Basic

namespace FlowScript.Catalog

def textAction (name label initial body : String) : NodeType where
  name := name
  kind := .action
  inputs := ["Flow"]
  outputs := ["Flow"]
  properties := [⟨"text", label, initial⟩]
  header := none
  body := some body

def builtinTypes : List NodeType :=
  [{  name := "Event: On Ready"
      kind := .event
      inputs := []
      outputs := ["Flow"]
      properties := []
      header := some "@bot.event\nasync def on_ready():"
      body := none },
   {  name := "Command"
      kind := .event
      inputs := []
      outputs := ["Flow"]
      properties := [⟨"trigger", "Trigger (!name)", "hello"⟩]
      header := some "@bot.command(name='\x7btrigger\x7d')\nasync def \x7bfunc_name\x7d(ctx):"
      body := none },
   textAction "Send Message" "Message Text" "Hello World!" "    await ctx.send('\x7btext\x7d')",
   textAction "Reply to User" "Reply Text" "I hear you!" "    await ctx.reply('\x7btext\x7d')",
   textAction "Print Console" "Log Text" "Debug message" "    print('\x7btext\x7d')"]

def builtin : Catalog := .ofDistinct builtinTypes (by decide)

end FlowScript.Catalog
