namespace FlowScript.Script

structure Settings where
  functionStem : String := "cmd_"
  commandMark : String := "!"
  token : String := "YOUR_TOKEN_HERE"
  deriving DecidableEq, Repr

def splitLines (cs : List Char) : List (List Char) :=
  go [] cs
where
  go (line : List Char) : List Char → List (List Char)
    | [] => if line.isEmpty then [] else [line.reverse]
    | c :: rest =>
        if c = '\n' then
          (match line with
            | '\r' :: line => line.reverse
            | _ => line.reverse) :: go [] rest
        else go (c :: line) rest

def setup (s : Settings) : String :=
  "import discord\nfrom discord.ext import commands\n\n" ++
    "intents = discord.Intents.default()\nintents.message_content = True\n" ++
    "bot = commands.Bot(command_prefix='" ++ s.commandMark ++ "', intents=intents)"

def preamble (s : Settings) : List String :=
  (splitLines (setup s).toList).map String.ofList ++ [""]

def closing (s : Settings) : String := "bot.run('" ++ s.token ++ "')"

end FlowScript.Script
