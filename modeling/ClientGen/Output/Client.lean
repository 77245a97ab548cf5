import ClientGen.Config.Settings
import ClientGen.Output.File

/-!
# Files of the HTTP client

* `ClientFile.instanceText`: the module that holds the HTTP client.
* `ClientFile.typesText`: the module with its types.
-/

namespace ClientGen.ClientFile

/-- The imports of the module. The handlers need more than the client alone. -/
def importLines (interceptors : Bool) : List String :=
  if interceptors then [
    "import axios, \x7b AxiosInstance, AxiosResponse, InternalAxiosRequestConfig \x7d from 'axios';",
    "import \x7b ApiError \x7d from './types';"]
  else ["import axios, \x7b AxiosInstance \x7d from 'axios';"]

/-- The client with its base address. -/
def clientLines (baseUrl : String) : List String := [
  "",
  "const BASE_URL = " ++ baseUrl ++ " || 'http://localhost:3000';",
  "",
  "export const axiosInstance: AxiosInstance = axios.create(\x7b",
  "  baseURL: BASE_URL,",
  "  timeout: 30000,",
  "  headers: \x7b",
  "    'Content-Type': 'application/json',",
  "    'Accept': 'application/json',",
  "  \x7d,",
  "\x7d);"]

/-- The handlers for requests and responses. -/
def handlerLines : List String := [
  "",
  "axiosInstance.interceptors.request.use(",
  "  (config: InternalAxiosRequestConfig) => \x7b",
  "    // Attach auth headers here, e.g.",
  "    // const token = localStorage.getItem('token');",
  "    // if (token) \x7b",
  "    //   config.headers.Authorization = `Bearer $\x7btoken\x7d`;",
  "    // \x7d",
  "    return config;",
  "  \x7d,",
  "  (error) => Promise.reject(error),",
  ");",
  "",
  "// Hooks receive the response body, not the AxiosResponse",
  "axiosInstance.interceptors.response.use(",
  "  (response: AxiosResponse) => response.data,",
  "  (error) => \x7b",
  "    const apiError: ApiError = \x7b",
  "      message: error.response?.data?.message || error.message || 'An error occurred',",
  "      status: error.response?.status,",
  "      data: error.response?.data,",
  "    \x7d;",
  "",
  "    if (error.response?.status === 401) \x7b",
  "      console.error('Unauthorized access');",
  "    \x7d",
  "",
  "    return Promise.reject(apiError);",
  "  \x7d,",
  ");"]

/-- The text of the module that holds the client. -/
def instanceText (s : AxiosSettings) : String :=
  textOfLines (importLines s.interceptors ++ clientLines s.baseUrl
    ++ (if s.interceptors then handlerLines else [])
    ++ ["", "export default axiosInstance;"])

/-- The text of the module with the types of the client. -/
def typesText : String := textOfLines [
  "export interface ApiError \x7b",
  "  message: string;",
  "  status?: number;",
  "  data?: any;",
  "\x7d",
  "",
  "export interface ApiResponse<T = any> \x7b",
  "  data: T;",
  "  message?: string;",
  "  success?: boolean;",
  "\x7d"]

end ClientGen.ClientFile
