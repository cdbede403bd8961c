/-! The page for queuing payloads by hand. -/
namespace UiSuite.Queue

/-- The lines of the page. -/
def pageLines : List String := [
  "<!DOCTYPE html>",
  "<html lang=\"en\">",
  "<head>",
  "  <meta charset=\"utf-8\" />",
  "  <title>uidsl queue</title>",
  "  <style>",
  "    body \x7b font-family: sans-serif; margin: 2rem auto; max-width: 720px; \x7d",
  "    textarea \x7b width: 100%; min-height: 320px; font-family: monospace; \x7d",
  "  </style>",
  "</head>",
  "<body>",
  "  <h1>Interactive DSL queue</h1>",
  "  <p>Paste a YAML or JSON payload and submit it to queue it for the running session.</p>",
  "  <form id=\"enqueue\" method=\"post\" action=\"/enqueue\">",
  "    <textarea name=\"payload\" placeholder=\"- action: click&#10;  selector: key:login\"></textarea>",
  "    <p><button type=\"submit\">Submit</button> <span id=\"size\"></span></p>",
  "  </form>",
  "  <script>",
  "    const form = document.getElementById('enqueue');",
  "    const size = document.getElementById('size');",
  "    async function refresh() \x7b",
  "      try \x7b",
  "        const res = await fetch('/status');",
  "        if (res.ok) size.textContent = `Queued: $\x7b(await res.json()).size\x7d`;",
  "      \x7d catch (err) \x7b console.error(err); \x7d",
  "    \x7d",
  "    form.addEventListener('submit', async (event) => \x7b",
  "      event.preventDefault();",
  "      const payload = new FormData(form).get('payload');",
  "      if (!payload || !payload.trim()) return;",
  "      const res = await fetch('/enqueue', \x7b",
  "        method: 'POST',",
  "        headers: \x7b 'Content-Type': 'text/plain; charset=utf-8' \x7d,",
  "        body: payload,",
  "      \x7d);",
  "      if (res.ok) \x7b form.reset(); refresh(); \x7d else \x7b alert('Failed to enqueue payload.'); \x7d",
  "    \x7d);",
  "    setInterval(refresh, 1500);",
  "    refresh();",
  "  </script>",
  "</body>",
  "</html>"]

/-- The page. -/
def page : String :=
  String.join (pageLines.map (· ++ "\n"))

end UiSuite.Queue
