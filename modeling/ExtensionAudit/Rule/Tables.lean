namespace ExtensionAudit.Rule

/-- Permissions that give broad access to browsing data or control over the browser, and what they
allow. -/
def highRiskPermissions : List (String × String) :=
  [("tabs", "Can access browser tab information and manipulate tabs"),
    ("webRequest", "Can intercept and modify web requests"),
    ("webRequestBlocking", "Can block and modify web requests in real-time"),
    ("<all_urls>", "Can access all websites and their content"),
    ("cookies", "Can access and modify browser cookies"),
    ("history", "Can access your browsing history"),
    ("management", "Can manage other extensions"),
    ("proxy", "Can control proxy settings"),
    ("webNavigation", "Can track your web navigation"),
    ("downloads", "Can download files and access download history"),
    ("clipboardWrite", "Can modify clipboard content"),
    ("clipboardRead", "Can read clipboard content"),
    ("bookmarks", "Can access and modify bookmarks"),
    ("debugger", "Can debug and manipulate other extensions/apps"),
    ("privacy", "Can modify privacy settings"),
    ("identity", "Can access your identity information")]

/-- Permissions with a limited but notable reach, and what they allow. -/
def mediumRiskPermissions : List (String × String) :=
  [("storage", "Can store data locally"),
    ("geolocation", "Can access your location"),
    ("notifications", "Can show notifications"),
    ("unlimitedStorage", "Can store unlimited data locally"),
    ("activeTab", "Can access the active tab when clicking the extension icon"),
    ("contextMenus", "Can add items to the context menu"),
    ("webview", "Can embed web content in the extension")]

/-- Match patterns that cover every site, or the local files. -/
def matchEverything : List String :=
  ["*://*/*", "<all_urls>", "*://*", "file:///*", "*"]

/-- Parts of the names of sites where much is at stake: banks, payments, brokers, crypto currency,
social networks, mail, shops, code hosting and package registries. -/
def sensitiveNames : List String :=
  ["chase", "bankofamerica", "wellsfargo", "citibank", "capitalone", "usbank", "barclays", "hsbc",
    "santander", "rbcroyalbank", "scotiabank", "tdbank", "paypal", "venmo", "wise", "stripe",
    "square", "cashapp", "revolut", "robinhood", "fidelity", "vanguard", "schwab", "etrade",
    "coinbase", "binance", "kraken", "metamask", "crypto.com", "gemini", "ledger", "trezor",
    "blockchain.com", "ftx", "kucoin", "bitfinex", "google", "facebook", "instagram", "twitter",
    "linkedin", "outlook", "protonmail", "yahoo", "gmail", "amazon", "shopify", "ebay", "walmart",
    "bestbuy", "target", "github", "gitlab", "bitbucket", "stackoverflow", "npmjs", "pypi",
    "circleci", "jenkins", "travis-ci", "dockerhub", "nuget", "maven", "rubygems", "packagist",
    "crates.io", "banking", "invest", "wallet", "finance", "credit", "debit", "bank", "crypto"]

/-- The directive value that allows WebAssembly to be compiled. -/
def wasmUnsafeEval : String := "'wasm-unsafe-eval'"

/-- The directive value that allows text to be run as code. -/
def unsafeEval : String := "'unsafe-eval'"

end ExtensionAudit.Rule
