import Tortoise.Charset.Decode
import Tortoise.Expr.Parse
import Tortoise.Settings.ConfigFile

/-!
# Help

The text that explains the command line.
-/

namespace Tortoise

def helpText : Text :=
  "robologo - タートルグラフィックス言語のコンパイラ・実行環境\n"
  ++ "\n"
  ++ "Usage:\n"
  ++ "  robologo [options] <program>\n"
  ++ "\n"
  ++ "Arguments:\n"
  ++ "  program       実行するプログラムのパス\n"
  ++ "                .robo ファイルはソースとしてコンパイルして実行\n"
  ++ "                .robc ファイルはコンパイル済みプログラムとして実行\n"
  ++ "\n"
  ++ "Options:\n"
  ++ "  -t, --timeout <seconds>     指定秒数後に実行を中止（デフォルト: 無制限）\n"
  ++ "  -l, --log-level <level>     ログレベル: debug, info, warn, error（デフォルト: info）\n"
  ++ "  --log-format <format>       ログ形式: text, json（デフォルト: text）\n"
  ++ "  --max-steps <n>             実行命令数の上限（デフォルト: 無制限）\n"
  ++ "  --max-expr-len <n>          式の最大長（デフォルト: "
  ++ Text.ofNat Expr.defaultBound ++ "）\n"
  ++ "  --encoding <name>           ソースの文字コード: "
  ++ ", ".intercalate Charset.names ++ "（デフォルト: utf-8）\n"
  ++ "  --dump                      コンパイル結果を逆アセンブルして表示\n"
  ++ "  --emit <file>               コンパイル結果を .robc 形式で書き出す\n"
  ++ "  --trace                     タートル操作の履歴を表示\n"
  ++ "  --config <file>             設定ファイル（デフォルト: ./" ++ ConfigFile.fileName ++ "）\n"
  ++ "  -h, --help                  このヘルプを表示\n"
  ++ "\n"
  ++ "Environment Variables:\n"
  ++ "  TIMEOUT=<seconds>           タイムアウト時間（秒）\n"
  ++ "  LOG_LEVEL=<level>           ログレベル\n"
  ++ "  MAX_STEPS=<n>               実行命令数の上限\n"
  ++ "\n"
  ++ "Examples:\n"
  ++ "  robologo square.robo                    プログラムを実行\n"
  ++ "  robologo --dump square.robo             逆アセンブル結果を表示して実行\n"
  ++ "  robologo --emit square.robc square.robo コンパイル結果を保存\n"
  ++ "  robologo square.robc                    コンパイル済みプログラムを実行\n"
  ++ "  robologo --max-steps 10000 loop.robo    10000命令で打ち切り\n"
  ++ "  robologo --encoding shift_jis sjis.robo Shift_JISのソースを実行\n"

end Tortoise
