/-!
# Ditlang.Prelude.Drivers

The programs that guest workers run: they connect to the daemon, announce their Lang, and answer
calls. They are data here, written to a file when a worker is started.
-/

namespace Ditlang
namespace Prelude

/-- A text of lines, each with its line break. -/
def textOfLines (lines : List String) : String :=
  String.join (lines.map (· ++ "\n"))

def pythonDriver : String :=
  textOfLines [
    "import importlib.util",
    "import json",
    "import socket",
    "import sys",
    "import traceback",
    "",
    "PORT = int(sys.argv[1])",
    "LANG = sys.argv[2] if len(sys.argv) > 2 else \"Python\"",
    "",
    "conn = socket.create_connection((\"127.0.0.1\", PORT))",
    "reader = conn.makefile(\"r\", encoding=\"utf-8\")",
    "",
    "",
    "def send(message):",
    "    conn.sendall((json.dumps(message, default=str) + \"\\n\").encode(\"utf-8\"))",
    "",
    "",
    "def receive():",
    "    while True:",
    "        line = reader.readline()",
    "        if not line:",
    "            sys.exit(0)",
    "        if line.strip():",
    "            return json.loads(line)",
    "",
    "",
    "def exe_ditlang(code):",
    "    send(\x7b\"type\": \"exe_ditlang\", \"result\": code\x7d)",
    "    reply = receive()",
    "    if reply.get(\"type\") != \"ditlang_callback\":",
    "        raise RuntimeError(\"expected ditlang_callback, got \" + str(reply.get(\"type\")))",
    "    return reply.get(\"result\")",
    "",
    "",
    "def call(job):",
    "    path = job[\"func_path\"]",
    "    spec = importlib.util.spec_from_file_location(job[\"func_name\"], path)",
    "    module = importlib.util.module_from_spec(spec)",
    "    spec.loader.exec_module(module)",
    "    return module.reserved_name(exe_ditlang)",
    "",
    "",
    "send(\x7b\"type\": \"connect\", \"lang\": LANG\x7d)",
    "while True:",
    "    job = receive()",
    "    if job.get(\"type\") != \"call_func\":",
    "        send(\x7b\"type\": \"crash\", \"result\": \"unexpected job type \" + str(job.get(\"type\"))\x7d)",
    "        continue",
    "    try:",
    "        result = call(job)",
    "    except Exception:",
    "        send(\x7b\"type\": \"crash\", \"result\": traceback.format_exc()\x7d)",
    "        continue",
    "    send(\x7b\"type\": \"finish_func\", \"result\": result\x7d)"]

def javaScriptDriver : String :=
  textOfLines [
    "const net = require(\"net\");",
    "const readline = require(\"readline\");",
    "",
    "const port = Number(process.argv[2]);",
    "const lang = process.argv[3] || \"JavaScript\";",
    "",
    "const socket = net.createConnection(\x7b port, host: \"127.0.0.1\" \x7d);",
    "const lines = readline.createInterface(\x7b input: socket \x7d);",
    "let pendingCallback = null;",
    "",
    "function send(message) \x7b",
    "    socket.write(JSON.stringify(message) + \"\\n\");",
    "\x7d",
    "",
    "function exe_ditlang(code) \x7b",
    "    return new Promise((resolve) => \x7b",
    "        pendingCallback = resolve;",
    "        send(\x7b type: \"exe_ditlang\", result: code \x7d);",
    "    \x7d);",
    "\x7d",
    "",
    "async function call(job) \x7b",
    "    delete require.cache[require.resolve(job.func_path)];",
    "    const script = require(job.func_path);",
    "    return script.reserved_name(exe_ditlang);",
    "\x7d",
    "",
    "socket.on(\"connect\", () => send(\x7b type: \"connect\", lang \x7d));",
    "",
    "lines.on(\"line\", (line) => \x7b",
    "    if (!line.trim()) \x7b",
    "        return;",
    "    \x7d",
    "    const job = JSON.parse(line);",
    "    if (job.type === \"ditlang_callback\" && pendingCallback) \x7b",
    "        const resolve = pendingCallback;",
    "        pendingCallback = null;",
    "        resolve(job.result);",
    "        return;",
    "    \x7d",
    "    if (job.type !== \"call_func\") \x7b",
    "        send(\x7b type: \"crash\", result: \"unexpected job type \" + job.type \x7d);",
    "        return;",
    "    \x7d",
    "    call(job)",
    "        .then((result) => send(\x7b type: \"finish_func\", result: result === undefined ? null : result \x7d))",
    "        .catch((err) => send(\x7b type: \"crash\", result: String(err && err.stack ? err.stack : err) \x7d));",
    "\x7d);",
    "",
    "socket.on(\"close\", () => process.exit(0));"]

end Prelude
end Ditlang
