/-!
The configuration that comes with the program, used where no directory is named.
-/

namespace SpreadWatch.Config

def shippedLines : List String :=
  [
    "quotes:",
    "  max_age_seconds: 60",
    "  max_future_skew_seconds: 30",
    "",
    "fees:",
    "  default_fee: \"0.0020\"",
    "  fee_overrides:",
    "    kraken: \"0.0026\"",
    "    coinbase: \"0.0050\"",
    "",
    "summary:",
    "  enabled: true",
    "  report_time: \"00:00\"",
    "  timezone: \"UTC\"",
    "",
    "logging:",
    "  level: INFO",
    "  format_json: false",
    "",
    "trade_combinations:",
    "  - long: coinbase",
    "    short: kraken",
    "    instruments: [\"BTC/USD\", \"ETH/USD\"]",
    "  - long: kraken",
    "    short: coinbase",
    "    instruments: [\"BTC/USD\"]",
    "",
    "delivery:",
    "  enabled: true",
    "  destinations:",
    "    - name: stdout",
    "      method: stdout",
    "      config:",
    "        format: pretty"]

def shippedText : String := String.join (shippedLines.map (· ++ "\n"))

end SpreadWatch.Config
